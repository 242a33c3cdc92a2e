import LittleComputer.Console.Scripted
import LittleComputer.Proofs.ImageLoading

namespace LittleComputer

/-! Several images in one memory -/

namespace Image

def Fills : Except ImageError Placement → Word → Prop
  | .error _, _ => False
  | .ok placement, address =>
      placement.origin.toNat ≤ address.toNat ∧
        address.toNat < placement.origin.toNat + placement.stored

instance (result : Except ImageError Placement) (address : Word) :
    Decidable (Fills result address) :=
  match result with
  | .error _ => inferInstanceAs (Decidable False)
  | .ok _ => inferInstanceAs (Decidable (_ ∧ _))

def Apart (first second : Except ImageError Placement) : Prop :=
  ∀ address, Fills first address → ¬ Fills second address

theorem wordsOfBytes_of_image {bytes : List Byte} {image : Image}
    (himage : ofBytes? bytes = some image) :
    wordsOfBytes bytes = image.origin :: image.words := by
  match bytes, himage with
  | high :: low :: bytes, himage =>
      cases himage
      rfl

def outcome (bytes : List Byte) : Except ImageError Placement :=
  match ofBytes? bytes with
  | none => .error .noOrigin
  | some image => .ok image.placement

def wordAt? (image : Image) (address : Word) : Option Word :=
  if image.origin.toNat ≤ address.toNat then
    image.storedWords[address.toNat - image.origin.toNat]?
  else
    none

theorem wordAt?_eq_none {image : Image} {address : Word}
    (hbare : ¬ Fills (.ok image.placement) address) : image.wordAt? address = none := by
  rw [wordAt?]
  split
  next hle =>
    refine List.getElem?_eq_none (Nat.le_of_not_lt fun hlt => hbare ⟨hle, ?_⟩)
    exact Nat.sub_lt_iff_lt_add' hle |>.mp hlt
  next => rfl

theorem wordAt?_of_fills {image : Image} {address : Word}
    (hfills : Fills (.ok image.placement) address) :
    ∃ word, image.wordAt? address = some word ∧
      image.words[address.toNat - image.origin.toNat]? = some word := by
  have hle : image.origin.toNat ≤ address.toNat := hfills.1
  have hposition : address.toNat - image.origin.toNat < image.storedWords.length :=
    Nat.sub_lt_iff_lt_add' hle |>.mpr hfills.2
  refine ⟨_, ?_, (getElem?_storedWords hposition).symm⟩
  rw [wordAt?, if_pos hle, List.getElem?_eq_getElem hposition]

def given? (bytes : List Byte) (address : Word) : Option Word :=
  (ofBytes? bytes).bind fun image => image.wordAt? address

theorem given?_eq_none {bytes : List Byte} {address : Word}
    (hbare : ¬ Fills (outcome bytes) address) : given? bytes address = none := by
  rw [given?]
  rw [outcome] at hbare
  cases himage : ofBytes? bytes with
  | none => rfl
  | some image =>
      rw [himage] at hbare
      exact wordAt?_eq_none hbare

theorem given?_of_fills {bytes : List Byte} {placement : Placement} {address : Word}
    (hloaded : outcome bytes = .ok placement) (hfills : Fills (.ok placement) address) :
    ∃ word, given? bytes address = some word ∧
      bigEndian? bytes (address.toNat - placement.origin.toNat + 1) = some word.toNat := by
  rw [outcome] at hloaded
  rw [given?]
  cases himage : ofBytes? bytes with
  | none =>
      rw [himage] at hloaded
      cases hloaded
  | some image =>
      rw [himage] at hloaded
      cases hloaded
      obtain ⟨word, hword, hwords⟩ := wordAt?_of_fills hfills
      refine ⟨word, hword, ?_⟩
      rw [← getElem?_wordsOfBytes, wordsOfBytes_of_image himage, List.getElem?_cons_succ]
      exact congrArg (Option.map UInt16.toNat) hwords

end Image

namespace Memory

def loadAll : List (List Byte) → Memory → Dialogue (List (Except ImageError Placement) × Memory)
  | [], memory => .done ([], memory)
  | bytes :: images, memory =>
      (loadBytes bytes memory).bind fun first =>
        (loadAll images first.2).bind fun rest => .done (first.1 :: rest.1, rest.2)

/-- The memory once these bytes were loaded, or were no image. -/
def stow (memory : Memory) (bytes : List Byte) : Memory :=
  match Image.ofBytes? bytes with
  | none => memory
  | some image => memory.storeImage image

theorem converse_loadBytes_eq {σ : Type} (console : Console σ) (state : σ) (memory : Memory)
    (bytes : List Byte) :
    (loadBytes bytes memory).converse console state =
      ((Image.outcome bytes, memory.stow bytes), state) := by
  cases himage : Image.ofBytes? bytes with
  | none => rw [loadBytes, Image.outcome, stow, himage, Dialogue.converse_done]
  | some image => rw [converse_loadBytes console state memory himage, Image.outcome, stow, himage]

theorem converse_loadAll {σ : Type} (console : Console σ) (state : σ) (memory : Memory)
    (images : List (List Byte)) :
    (loadAll images memory).converse console state =
      ((images.map Image.outcome, images.foldl stow memory), state) := by
  induction images generalizing memory with
  | nil => rfl
  | cons bytes images ih =>
      rw [loadAll, Dialogue.converse_bind, converse_loadBytes_eq, Dialogue.converse_bind, ih]
      rfl

theorem peek_storeImage (memory : Memory) (image : Image) (address : Word) :
    (memory.storeImage image).peek address =
      (image.wordAt? address).getD (memory.peek address) := by
  have hcells := memory.storeImage_stored image
  rw [Image.wordAt?]
  split
  next hle =>
    rcases Nat.lt_or_ge (address.toNat - image.origin.toNat) image.storedWords.length with hlt | hge
    · rw [List.getElem?_eq_getElem hlt]
      exact hcells.placed _ hlt address (Nat.add_sub_of_le hle).symm
    · rw [List.getElem?_eq_none hge]
      exact hcells.kept address (.inr (Nat.add_le_of_le_sub' hle hge))
  next hlt => exact hcells.kept address (.inl (Nat.lt_of_not_le hlt))

theorem peek_stow (memory : Memory) (bytes : List Byte) (address : Word) :
    (memory.stow bytes).peek address =
      (Image.given? bytes address).getD (memory.peek address) := by
  rw [stow, Image.given?]
  cases Image.ofBytes? bytes with
  | none => rfl
  | some image => exact memory.peek_storeImage image address

theorem peek_foldl_stow_of_bare (memory : Memory) {images : List (List Byte)} {address : Word}
    (hbare : ∀ bytes ∈ images, Image.given? bytes address = none) :
    (images.foldl stow memory).peek address = memory.peek address := by
  induction images generalizing memory with
  | nil => rfl
  | cons bytes images ih =>
      obtain ⟨hfirst, hrest⟩ := List.forall_mem_cons.mp hbare
      rw [List.foldl_cons, ih _ hrest, peek_stow, hfirst]
      rfl

theorem stow_stow (memory : Memory) (bytes : List Byte) :
    (memory.stow bytes).stow bytes = memory.stow bytes := by
  apply ext_peek
  intro address
  simp only [peek_stow]
  cases Image.given? bytes address <;> rfl

theorem stow_comm (memory : Memory) {first second : List Byte}
    (hapart : Image.Apart (Image.outcome first) (Image.outcome second)) :
    (memory.stow first).stow second = (memory.stow second).stow first := by
  apply ext_peek
  intro address
  simp only [peek_stow]
  by_cases hfills : Image.Fills (Image.outcome first) address
  · rw [Image.given?_eq_none (hapart address hfills)]
    rfl
  · rw [Image.given?_eq_none hfills]
    rfl

theorem foldl_stow_perm (memory : Memory) {images shuffled : List (List Byte)}
    (hperm : images.Perm shuffled)
    (hapart : (images.map Image.outcome).Pairwise Image.Apart) :
    images.foldl stow memory = shuffled.foldl stow memory := by
  -- Any two of the images commute: an image with itself, and the others where they are apart.
  have hcommute : images.Pairwise fun first second => ∀ memory : Memory,
      (memory.stow first).stow second = (memory.stow second).stow first :=
    (List.pairwise_map.mp hapart).imp fun hpair memory => memory.stow_comm hpair
  have hflipped := hcommute.imp fun hpair memory => (hpair memory).symm
  refine hperm.foldl_eq' (fun first hfirst second hsecond memory => ?_) memory
  exact hcommute.forall_of_forall_of_flip (fun _ _ _ => rfl) hflipped hfirst hsecond memory

/-- What memory holds after images were loaded over it, each with this result: a cell holds
what the last of the images that went to it has for it. -/
structure Overlaid (before : Memory) (loads : List (List Byte × Except ImageError Placement))
    (after : Memory) : Prop where
  last : ∀ earlier bytes placement later address,
    loads = earlier ++ (bytes, .ok placement) :: later → Image.Fills (.ok placement) address →
      (∀ load ∈ later, ¬ Image.Fills load.2 address) →
        Image.bigEndian? bytes (address.toNat - placement.origin.toNat + 1) =
          some (after.peek address).toNat
  bare : ∀ address, (∀ load ∈ loads, ¬ Image.Fills load.2 address) →
    after.peek address = before.peek address

theorem zip_outcome (images : List (List Byte)) :
    images.zip (images.map Image.outcome) =
      images.map fun bytes => (bytes, Image.outcome bytes) := by
  induction images with
  | nil => rfl
  | cons bytes images ih => rw [List.map_cons, List.zip_cons_cons, ih, List.map_cons]

theorem foldl_stow_overlaid (memory : Memory) (images : List (List Byte)) :
    memory.Overlaid (images.zip (images.map Image.outcome)) (images.foldl stow memory) where
  last earlier bytes placement later address hloads hfills hlater := by
    rw [zip_outcome] at hloads
    obtain ⟨before, rest, rfl, _, hrest⟩ := List.map_eq_append_iff.mp hloads
    obtain ⟨first, after, rfl, hfirst, rfl⟩ := List.map_eq_cons_iff.mp hrest
    obtain ⟨rfl, hloaded⟩ := Prod.mk.inj hfirst
    obtain ⟨word, hgiven, hword⟩ := Image.given?_of_fills hloaded hfills
    have hafter : ∀ other ∈ after, Image.given? other address = none := fun other hmem =>
      Image.given?_eq_none (hlater _ (List.mem_map_of_mem hmem))
    rw [hword, List.foldl_append, List.foldl_cons, peek_foldl_stow_of_bare _ hafter, peek_stow,
      hgiven]
    rfl
  bare address hbare := by
    rw [zip_outcome] at hbare
    exact memory.peek_foldl_stow_of_bare fun bytes hmem =>
      Image.given?_eq_none (hbare _ (List.mem_map_of_mem hmem))

/-- Images that are loaded one after the other lie over each other in this order, and what
loading one of them gives does not depend on the others or on the memory. An image loaded once
more at once changes nothing, and images that go to different cells may change places. -/
theorem images_overlaid {σ : Type} (console : Console σ) (state : σ) (memory : Memory)
    (images : List (List Byte)) :
    ∃ results after,
      (loadAll images memory).converse console state = ((results, after), state) ∧
      memory.Overlaid (images.zip results) after ∧
      (∀ {τ : Type} (other : Console τ) (elsewhere : τ) (bare : Memory),
        results = images.map fun bytes =>
          ((loadBytes bytes bare).converse other elsewhere).1.1) ∧
      (∀ earlier bytes later, images = earlier ++ bytes :: later →
        ∃ again, (loadAll (earlier ++ bytes :: bytes :: later) memory).converse console state =
          ((again, after), state)) ∧
      ∀ shuffled, images.Perm shuffled →
        results.Pairwise Image.Apart →
          ∃ moved, (loadAll shuffled memory).converse console state = ((moved, after), state) ∧
            (images.zip results).Perm (shuffled.zip moved) := by
  refine ⟨images.map Image.outcome, images.foldl stow memory, converse_loadAll _ _ _ _,
    foldl_stow_overlaid memory images, fun other elsewhere bare => ?_,
    fun earlier bytes later himages => ⟨(earlier ++ bytes :: bytes :: later).map Image.outcome, ?_⟩,
    fun shuffled hperm hapart => ⟨shuffled.map Image.outcome, ?_, ?_⟩⟩
  · simp only [converse_loadBytes_eq]
  · subst himages
    rw [converse_loadAll, List.foldl_append, List.foldl_cons, List.foldl_cons, stow_stow,
      List.foldl_append, List.foldl_cons]
  · rw [converse_loadAll, foldl_stow_perm memory hperm hapart]
  · rw [zip_outcome, zip_outcome]
    exact hperm.map _

theorem last_cell_corrected :
    ∃ after,
      (loadAll [[0xFF, 0xFE, 0x12, 0x34, 0xAB, 0xCD, 0x56, 0x78], [0x40],
          [0xFF, 0xFF, 0x00, 0x07]] empty).converse Script.console { input := [] } =
        (([.ok ⟨0xFFFE, 2, 1⟩, .error .noOrigin, .ok ⟨0xFFFF, 1, 0⟩], after),
          { input := [] }) ∧
      after.peek 0xFFFE = 0x1234 ∧ after.peek 0xFFFF = 7 ∧ after.peek 0 = 0 := by
  obtain ⟨results, after, hload, hoverlaid, hresults, _⟩ :=
    images_overlaid Script.console { input := [] } empty
      [[0xFF, 0xFE, 0x12, 0x34, 0xAB, 0xCD, 0x56, 0x78], [0x40], [0xFF, 0xFF, 0x00, 0x07]]
  obtain rfl : results = [.ok ⟨0xFFFE, 2, 1⟩, .error .noOrigin, .ok ⟨0xFFFF, 1, 0⟩] :=
    hresults Script.console { input := [] } empty
  have hfirst := hoverlaid.last [] _ _ _ 0xFFFE rfl (by decide) (by decide)
  have hlast := hoverlaid.last [_, _] _ _ [] 0xFFFF rfl (by decide) (by decide)
  refine ⟨after, hload, ?_, ?_, ?_⟩
  · exact UInt16.toNat_inj.mp (Option.some.inj hfirst).symm
  · exact UInt16.toNat_inj.mp (Option.some.inj hlast).symm
  · rw [hoverlaid.bare 0 (by decide), peek_empty]

end Memory

end LittleComputer
