import LittleComputer.Proofs.ListedFaults
import LittleComputer.Proofs.RunCalls
import LittleComputer.Proofs.Sessions

namespace LittleComputer

/-! Windows of a listing, and the one that a fault is reported with -/

structure Row.Shows (row : Row) (memory : Memory) : Prop where
  word : row.word = memory.peek row.address
  isIllegal : row.isIllegal = (Instruction.decode row.word).opcode.isIllegal
  legal : row.isIllegal = false →
    row.mnemonic = (Instruction.decode row.word).mnemonic ∧
      row.operands = (Instruction.decode row.word).operands
  illegal : row.isIllegal = true →
    row.mnemonic = ".word" ∧ row.operands = row.word.hex ++ " ; ILLEGAL"

theorem Row.ofWord_shows (memory : Memory) (address : Word) :
    (ofWord address (memory.peek address)).Shows memory where
  word := by rw [word_ofWord, address_ofWord]
  isIllegal := by rw [isIllegal_ofWord, word_ofWord, Instruction.opcode_decode]
  legal hlegal := by
    rw [isIllegal_ofWord] at hlegal
    rw [word_ofWord]
    exact ⟨mnemonic_ofWord _ _ hlegal, operands_ofWord _ _ hlegal⟩
  illegal hillegal := by
    rw [isIllegal_ofWord] at hillegal
    rw [word_ofWord]
    exact ⟨mnemonic_ofWord_illegal _ _ hillegal, operands_ofWord_illegal _ _ hillegal⟩

namespace Memory

/-- The rows are those of consecutive cells around `center`, cut where they would come round to
the first one. -/
structure Windows (memory : Memory) (center before after : Word) (rows : List Row) : Prop where
  length : rows.length = min (before.toNat + 1 + after.toNat) 65536
  consecutive : ∀ (index : Nat) (row : Row), rows[index]? = some row →
    (row.address.toNat : Int) = (center.toNat - before.toNat + index) % 65536
  shows : ∀ row ∈ rows, row.Shows memory
  distinct : (rows.map Row.address).Nodup
  center : (rows.map Row.address)[before.toNat]? = some center
  complete : 65536 ≤ before.toNat + 1 + after.toNat →
    ∀ address, (rows.map Row.address).count address = 1

theorem map_address_rows (memory : Memory) (address : Word) (count : Nat) :
    (memory.rows address count).map Row.address = address.upward count := by
  rw [rows_eq_map, List.map_map]
  calc (address.upward count).map (Row.address ∘ fun cell => Row.ofWord cell (memory.peek cell))
    _ = (address.upward count).map id :=
        List.map_congr_left fun cell _ => Row.address_ofWord cell (memory.peek cell)
    _ = address.upward count := List.map_id _

theorem shows_of_mem_rows {memory : Memory} {address : Word} {count : Nat} {row : Row}
    (hmem : row ∈ memory.rows address count) : row.Shows memory := by
  rw [rows_eq_map] at hmem
  obtain ⟨cell, _, rfl⟩ := List.mem_map.mp hmem
  exact Row.ofWord_shows memory cell

theorem window_windows (memory : Memory) (center before after : Word) :
    memory.Windows center before after (memory.window center before after) where
  length := length_rows _ _ _
  consecutive index row hrow := by
    obtain ⟨hindex, _⟩ := List.getElem?_eq_some_iff.mp hrow
    rw [window, getElem?_rows memory _ (by simpa [window] using hindex)] at hrow
    obtain rfl := Option.some.inj hrow
    have hcenter := center.toNat_lt
    have hbefore := before.toNat_lt
    rw [Row.address_ofWord, UInt16.toNat_add, UInt16.toNat_sub, UInt16.toNat_ofNat']
    omega
  shows row hmem := shows_of_mem_rows hmem
  distinct := by
    rw [window, map_address_rows]
    exact Word.nodup_upward _ (Nat.min_le_right _ _)
  center := by
    rw [List.getElem?_map, getElem?_window_center]
    exact congrArg some (Row.address_ofWord _ _)
  complete hclamped address := by
    have hcount : min (before.toNat + 1 + after.toNat) size = size := Nat.min_eq_right hclamped
    rw [window, map_address_rows, hcount]
    exact Word.count_upward_size _ address

theorem Windows.parts {memory : Memory} {center before after : Word} {rows : List Row}
    (hwindows : memory.Windows center before after rows) :
    ∃ earlier row later, rows = earlier ++ row :: later ∧ earlier.length = before.toNat ∧
      row.address = center ∧ ∀ other ∈ earlier ++ later, other.address ≠ center := by
  have hcenter := hwindows.center
  have hdistinct := hwindows.distinct
  rw [List.getElem?_map, Option.map_eq_some_iff] at hcenter
  obtain ⟨row, hrow, rfl⟩ := hcenter
  obtain ⟨hlength, rfl⟩ := List.getElem?_eq_some_iff.mp hrow
  have hparts : rows = rows.take before.toNat ++
      rows[before.toNat] :: rows.drop (before.toNat + 1) := by
    rw [List.getElem_cons_drop, List.take_append_drop]
  refine ⟨_, _, _, hparts, List.length_take_of_le (Nat.le_of_lt hlength), rfl, ?_⟩
  rw [hparts, List.map_append, List.map_cons, List.nodup_append, List.nodup_cons] at hdistinct
  obtain ⟨_, ⟨hlater, _⟩, hearlier⟩ := hdistinct
  intro other hmem
  rcases List.mem_append.mp hmem with hmem | hmem
  · exact hearlier _ (List.mem_map_of_mem hmem) _ List.mem_cons_self
  · exact fun haddress => hlater (haddress ▸ List.mem_map_of_mem hmem)

end Memory

namespace Session

/-- Nine rows, of which just the middle one is marked: it shows the instruction at fault. -/
structure Reports (final : Machine) (fault : Fault) (events : List Event) : Prop where
  length : events.length = 9
  marked : ∃ earlier row later, events = earlier ++ .faultRow row '>' :: later ∧
    earlier.length = 4 ∧ row.address = fault.pc ∧ row.Shows final.memory ∧
    ∀ event ∈ earlier ++ later, ∃ other, event = .faultRow other ' ' ∧ other.address ≠ fault.pc

theorem faultListing_reports {final : Machine} {fault : Fault}
    (hpc : final.registers.pc = fault.pc) : Reports final fault (faultListing final fault) := by
  have hwindows := final.memory.window_windows final.registers.pc listingMargin listingMargin
  obtain ⟨earlier, row, later, hrows, hlength, haddress, hothers⟩ := hwindows.parts
  rw [hpc] at haddress hothers
  let listed (row : Row) : Event := .faultRow row (if row.address = fault.pc then '>' else ' ')
  have hlisting : faultListing final fault =
      earlier.map listed ++ listed row :: later.map listed := by
    rw [← List.map_cons, ← List.map_append, ← hrows]
    rfl
  have hshows : row.Shows final.memory := by
    apply hwindows.shows
    rw [hrows]
    exact List.mem_append_right _ List.mem_cons_self
  constructor
  · rw [faultListing, List.length_map, Machine.window, hwindows.length]
    rfl
  · refine ⟨earlier.map listed, row, later.map listed, ?_, ?_, haddress, hshows, ?_⟩
    · have hlisted : listed row = .faultRow row '>' :=
        congrArg (Event.faultRow row) (if_pos haddress)
      rw [hlisting, hlisted]
    · rw [List.length_map, hlength]
      rfl
    · rw [← List.map_append]
      intro event hmem
      obtain ⟨other, hother, rfl⟩ := List.mem_map.mp hmem
      have haddress := hothers other hother
      exact ⟨other, congrArg (Event.faultRow other) (if_neg haddress), haddress⟩

theorem reports_of_run {σ : Type} {console : Console σ} {machine final : Machine}
    {state left : σ} {fault : Fault}
    (hrun : (Machine.run machine).converse console state = ((.error fault, final), left)) :
    Reports final fault (faultListing final fault) := by
  obtain ⟨_, reached, between, _, _, hround⟩ := Machine.run_fault hrun
  have hwithdrawn := Machine.withdrawn_of_round hround
  apply faultListing_reports
  rw [hwithdrawn.registers, hwithdrawn.pc]

theorem transcript_runImages {σ : Type} {console : Console σ} {machine final : Machine}
    {state left : σ} {fault : Fault}
    (hrun : (Machine.run machine).converse console state = ((.error fault, final), left)) :
    (runImages machine).transcript console state =
      (Machine.run machine).transcript console state ++
        (faultListing final fault).map Moment.note := by
  rw [runImages, Dialogue.transcript_bind, hrun]
  simp only [Dialogue.transcript_notes, Dialogue.transcript_done, List.append_nil]

theorem ofOptions_fault {σ : Type} {console : Console σ} {environment : Environment}
    {options : Options} {state left : σ} {fault : Fault}
    (hsession : (ofOptions environment options).converse console state =
      (.error (.fault fault), left)) :
    ∃ machine final, (Machine.run machine).converse console state = ((.error fault, final), left) ∧
      ∃ events, (ofOptions environment options).transcript console state =
        events ++ (runImages machine).transcript console state := by
  obtain ⟨events, _, ⟨images, _, hloaded⟩ | ⟨path, error, _, _, hfailed⟩⟩ :=
    ofOptions_eq environment options
  · rw [hloaded, Dialogue.converse_notes, converse_outcome] at hsession
    let machine := Machine.holdingImages options.config images
    rcases hrun : (Machine.run machine).converse console state with
      ⟨⟨reached | summary, final⟩, after⟩
    · rw [hrun] at hsession
      cases hsession
      refine ⟨machine, final, hrun, events.map Moment.note, ?_⟩
      rw [hloaded, Dialogue.transcript_notes, outcome, Dialogue.transcript_bind,
        Dialogue.transcript_done, List.append_nil]
    · rw [hrun] at hsession
      cases hsession
  · rw [hfailed, Dialogue.converse_notes] at hsession
    cases hsession

/-- A window shows every cell at most once, its center where it should be, and all cells if it is
wide enough. What is reported of a run that faults is the window around the instruction at fault,
with this one row marked, and it is the end of the journal of a session. -/
theorem windows_and_fault_reports {σ : Type} (console : Console σ) :
    (∀ memory center before after, Memory.Windows memory center before after
      (memory.window center before after)) ∧
    (∀ machine state fault final left,
      (Machine.run machine).converse console state = ((.error fault, final), left) →
        (runImages machine).transcript console state =
          (Machine.run machine).transcript console state ++
            (faultListing final fault).map Moment.note ∧
        Reports final fault (faultListing final fault)) ∧
    ∀ environment options state fault left,
      (ofOptions environment options).converse console state = (.error (.fault fault), left) →
        ∃ earlier final report,
          (ofOptions environment options).transcript console state =
            earlier ++ report.map Moment.note ∧ Reports final fault report := by
  refine ⟨Memory.window_windows, fun machine state fault final left hrun => ?_,
    fun environment options state fault left hsession => ?_⟩
  · exact ⟨transcript_runImages hrun, reports_of_run hrun⟩
  · obtain ⟨machine, final, hrun, events, htranscript⟩ := ofOptions_fault hsession
    rw [transcript_runImages hrun, ← List.append_assoc] at htranscript
    exact ⟨_, final, _, htranscript, reports_of_run hrun⟩

theorem fault_near_start_of_memory :
    let fault : Fault := ⟨0x0002, .illegal .res 0xD000⟩
    ∃ final left,
      (Machine.run (.holding { entry := 0x0002 } [0xD000])).converse Script.console
          { input := [] } = ((.error fault, final), left) ∧
        Reports final fault (faultListing final fault) ∧
        (final.window listingMargin listingMargin).map Row.address =
          [0xFFFE, 0xFFFF, 0, 1, 2, 3, 4, 5, 6] := by
  intro fault
  let machine : Machine := .holding { entry := 0x0002 } [0xD000]
  have hword : machine.memory.peek 0x0002 = 0xD000 := Memory.peek_write_self Memory.empty _ _
  have hplain : machine.registers.pc ≠ DeviceCell.keyboardStatus.address := by decide
  have hstep : (Machine.step machine).converse Script.console { input := [] } =
      ((.error fault, machine), { input := [] }) :=
    Machine.step_refused rfl hplain hword (by decide)
  have hrun : (Machine.run machine).converse Script.console { input := [] } =
      ((.error fault, machine), { input := [] }) :=
    Machine.run_faulted (Machine.roundsReach_zero_iff.mpr ⟨rfl, rfl⟩) rfl (by decide)
      ((Machine.converse_round rfl machine).trans hstep)
  obtain ⟨_, hreports, _⟩ := windows_and_fault_reports Script.console
  refine ⟨machine, _, hrun, (hreports machine _ fault machine _ hrun).2, ?_⟩
  rw [Machine.window, Memory.window, Memory.map_address_rows]
  decide

end Session

end LittleComputer
