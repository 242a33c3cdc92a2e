import LittleComputer.CommandLine.Report
import LittleComputer.Proofs.Calls
import LittleComputer.Proofs.Cycle
import LittleComputer.Proofs.ImageLoading

namespace LittleComputer

/-! Sessions: the images and the run -/

def Environment.image (environment : Environment) (path : String) : Except ImageError Image :=
  match environment.contents path with
  | .error error => .error (.unreadableFile path error.text)
  | .ok bytes =>
      match Image.ofBytes? bytes with
      | none => .error .noOrigin
      | some image => .ok image

def Environment.ofFile (bytes : List Byte) : Environment where
  contents _ := .ok bytes
  inputIsTerminal := false
  directives := none

def Machine.holdingImages (config : Config) (images : List Image) : Machine :=
  { ofConfig config with memory := images.foldl Memory.storeImage .empty }

theorem Machine.holdingImages_program {config : Config} {program : List Word} {odd : Bool}
    (hfits : program.length ≤ Memory.size - config.entry.toNat) :
    holdingImages config [⟨config.entry, program, odd⟩] = holding config program := by
  rw [holdingImages, List.foldl_cons, List.foldl_nil, Memory.storeImage,
    Image.storedWords_of_fits hfits]
  rfl

namespace Dialogue

variable {α β σ : Type}

theorem notes_bind (events : List Event) (rest : Dialogue α) (after : α → Dialogue β) :
    (notes events rest).bind after = notes events (rest.bind after) := by
  induction events with
  | nil => rfl
  | cons event events ih => exact congrArg (note event) ih

theorem notes_append (first second : List Event) (rest : Dialogue α) :
    notes (first ++ second) rest = notes first (notes second rest) :=
  List.foldr_append

theorem transcript_notes (console : Console σ) (events : List Event) (rest : Dialogue α)
    (state : σ) :
    (notes events rest).transcript console state =
      events.map Moment.note ++ rest.transcript console state := by
  induction events with
  | nil => rfl
  | cons event events ih => exact congrArg (List.cons (Moment.note event)) ih

theorem calls_notes (console : Console σ) (events : List Event) (rest : Dialogue α) (state : σ) :
    (notes events rest).calls console state = rest.calls console state := by
  induction events with
  | nil => rfl
  | cons event events ih => exact ih

end Dialogue

namespace Session

variable {environment : Environment}

def loadEvents (path : String) (image : Image) : List Event :=
  image.events ++
    [.imageFileRead path, .imageAccepted path image.placement.origin image.placement.stored]

theorem fetched_not_mem_loadEvents (path : String) (image : Image) (address word : Word) :
    .fetched address word ∉ loadEvents path image := by
  simp only [loadEvents, Image.events, List.mem_append, not_or]
  refine ⟨⟨⟨?_, ?_⟩, nofun⟩, nofun⟩ <;> split <;> nofun

theorem loadFile_eq (environment : Environment) (path : String) (memory : Memory) :
    Memory.loadFile path ((environment.contents path).mapError SystemError.text) memory =
      match environment.image path with
      | .error error => .done (.error error, memory)
      | .ok image => Dialogue.notes (image.events ++ [.imageFileRead path])
          (.done (.ok image.placement, memory.storeImage image)) := by
  unfold Environment.image
  cases environment.contents path with
  | error error => rfl
  | ok bytes =>
      change Memory.loadFile path (.ok bytes) memory = _
      rw [Memory.loadFile, Action.bind_apply, Memory.loadBytes]
      cases hbytes : Image.ofBytes? bytes with
      | none =>
          simp only [hbytes]
          rfl
      | some image =>
          simp only [hbytes, Dialogue.notes_bind, Dialogue.notes_append]
          rfl

theorem loadImages_image {path : String} {image : Image}
    (himage : environment.image path = .ok image) (paths : List String) (machine : Machine) :
    loadImages environment (path :: paths) machine =
      Dialogue.notes (loadEvents path image) (loadImages environment paths
        { machine with memory := machine.memory.storeImage image }) := by
  rw [loadImages, Action.bind_apply, Action.mapError_apply, Machine.onMemory_apply, loadFile_eq,
    himage]
  simp only [Dialogue.notes_bind, loadEvents, Dialogue.notes_append]
  rfl

theorem loadImages_error {path : String} {error : ImageError}
    (herror : environment.image path = .error error) (paths : List String) (machine : Machine) :
    loadImages environment (path :: paths) machine =
      .done (.error (.load path error), machine) := by
  rw [loadImages, Action.bind_apply, Action.mapError_apply, Machine.onMemory_apply, loadFile_eq,
    herror]
  rfl

/-- How loading ends, and the memory it leaves. It stops at the first image that fails. -/
inductive Loading (environment : Environment) (paths : List String) (memory : Memory) :
    Except Failure Unit → Memory → Prop
  | done {images : List Image} (hload : paths.mapM environment.image = .ok images) :
      Loading environment paths memory (.ok ()) (images.foldl Memory.storeImage memory)
  | failed {earlier later : List String} {path : String} {images : List Image}
      {error : ImageError} (hpaths : paths = earlier ++ path :: later)
      (hearlier : earlier.mapM environment.image = .ok images)
      (herror : environment.image path = .error error) :
      Loading environment paths memory (.error (.load path error))
        (images.foldl Memory.storeImage memory)

theorem Loading.cons {path : String} {paths : List String} {image : Image} {memory after : Memory}
    {result : Except Failure Unit} (himage : environment.image path = .ok image)
    (hrest : Loading environment paths (memory.storeImage image) result after) :
    Loading environment (path :: paths) memory result after := by
  cases hrest with
  | @done images hload =>
      have hall : (path :: paths).mapM environment.image = .ok (image :: images) := by
        rw [List.mapM_cons, himage, hload]
        rfl
      exact .done hall
  | @failed earlier later failed images error hpaths hearlier herror =>
      have hbefore : (path :: earlier).mapM environment.image = .ok (image :: images) := by
        rw [List.mapM_cons, himage, hearlier]
        rfl
      exact .failed (congrArg (List.cons path) hpaths) hbefore herror

theorem image_of_mapM {paths : List String} {images : List Image}
    (hload : paths.mapM environment.image = .ok images) :
    ∀ path ∈ paths, ∃ image, environment.image path = .ok image := by
  induction paths generalizing images with
  | nil => exact nofun
  | cons path paths ih =>
      rw [List.mapM_cons] at hload
      cases himage : environment.image path with
      | error error =>
          rw [himage] at hload
          cases hload
      | ok image =>
          rw [himage] at hload
          cases hrest : paths.mapM environment.image with
          | error error =>
              rw [hrest] at hload
              cases hload
          | ok rest => exact List.forall_mem_cons.mpr ⟨⟨image, himage⟩, ih hrest⟩

theorem loadImages_loading (environment : Environment) (paths : List String) (machine : Machine) :
    ∃ events result memory, (∀ address word, .fetched address word ∉ events) ∧
      loadImages environment paths machine =
        Dialogue.notes events (.done (result, { machine with memory := memory })) ∧
      Loading environment paths machine.memory result memory := by
  have hnone : [].mapM environment.image = .ok [] := rfl
  induction paths generalizing machine with
  | nil => exact ⟨[], .ok (), machine.memory, nofun, rfl, .done hnone⟩
  | cons path paths ih =>
      cases himage : environment.image path with
      | error error =>
          exact ⟨[], _, machine.memory, nofun, loadImages_error himage paths machine,
            .failed (List.nil_append _).symm hnone himage⟩
      | ok image =>
          obtain ⟨events, result, memory, hevents, hloads, hloading⟩ :=
            ih { machine with memory := machine.memory.storeImage image }
          refine ⟨loadEvents path image ++ events, result, memory, fun address word => ?_, ?_,
            hloading.cons himage⟩
          · rw [List.mem_append, not_or]
            exact ⟨fetched_not_mem_loadEvents path image address word, hevents address word⟩
          · rw [loadImages_image himage, hloads, Dialogue.notes_append]

def outcome (machine : Machine) : Dialogue (Except Failure RunSummary) :=
  (runImages machine).bind fun result => .done result.1

theorem converse_outcome {σ : Type} (console : Console σ) (machine : Machine) (state : σ) :
    (outcome machine).converse console state =
      (((Machine.run machine).converse console state).1.1.mapError .fault,
        ((Machine.run machine).converse console state).2) := by
  rw [outcome, runImages, Dialogue.converse_bind, Dialogue.converse_bind]
  rcases (Machine.run machine).converse console state with ⟨⟨fault | summary, final⟩, left⟩
  · simp only [Dialogue.converse_notes]
    rfl
  · rfl

/-- Either all images load and the machine that holds them runs, or the session ends where one
fails. What comes before says something about images and the input, and that is all. -/
theorem ofOptions_eq (environment : Environment) (options : Options) :
    ∃ events, (∀ address word, .fetched address word ∉ events) ∧
      ((∃ images, options.images.mapM environment.image = .ok images ∧
          ofOptions environment options =
            .notes events (outcome (.holdingImages options.config images))) ∨
        ∃ path error, path ∈ options.images ∧ environment.image path = .error error ∧
          ofOptions environment options = .notes events (.done (.error (.load path error)))) := by
  obtain ⟨events, result, memory, hevents, hloads, hloading⟩ :=
    loadImages_loading environment options.images (.ofConfig options.config)
  cases hloading with
  | @done images hload =>
      refine ⟨events ++ [if environment.inputIsTerminal then .inputMadeRaw else .inputKeptAsIs],
        fun address word => ?_, .inl ⟨images, hload, ?_⟩⟩
      · rw [List.mem_append, not_or, List.mem_singleton]
        refine ⟨hevents address word, ?_⟩
        split <;> nofun
      · rw [ofOptions, perform, Action.bind_apply, hloads]
        simp only [Dialogue.notes_bind, Dialogue.notes_append]
        rfl
  | @failed earlier later path images error hpaths hearlier herror =>
      refine ⟨events, hevents, .inr ⟨path, error, ?_, herror, ?_⟩⟩
      · rw [hpaths]
        exact List.mem_append_right _ List.mem_cons_self
      · rw [ofOptions, perform, Action.bind_apply, hloads]
        simp only [Dialogue.notes_bind]
        rfl

end Session

namespace Report

variable {reading : Reading} {arguments : List String} {options : Options}

theorem ofCall_accepted (environment : Environment) (streams : Streams)
    (hread : reading.options arguments = .ok options) :
    ∃ journal, ofCall reading environment streams arguments =
      ofResult ((Session.ofOptions environment options).converse Streams.console streams).1
        ((Session.ofOptions environment options).converse Streams.console streams).2 journal := by
  rw [ofCall, hread, ← Dialogue.record_fst Streams.console (reading.admits environment options) _
    streams #[]]
  exact ⟨_, rfl⟩

theorem ofCall_loaded {environment : Environment} (streams : Streams)
    (hread : reading.options arguments = .ok options) {images : List Image}
    (hload : options.images.mapM environment.image = .ok images) :
    let run := (Machine.run (.holdingImages options.config images)).converse Streams.console streams
    ∃ journal, ofCall reading environment streams arguments =
      ofResult (run.1.1.mapError .fault) run.2 journal := by
  obtain ⟨journal, hcall⟩ := ofCall_accepted environment streams hread
  obtain ⟨events, _, ⟨actual, hactual, hsession⟩ | ⟨path, error, hpath, herror, _⟩⟩ :=
    Session.ofOptions_eq environment options
  · obtain rfl : images = actual := Except.ok.inj (hload.symm.trans hactual)
    rw [hsession, Dialogue.converse_notes, Session.converse_outcome] at hcall
    exact ⟨journal, hcall⟩
  · obtain ⟨image, himage⟩ := Session.image_of_mapM hload path hpath
    rw [himage] at herror
    cases herror

end Report

end LittleComputer
