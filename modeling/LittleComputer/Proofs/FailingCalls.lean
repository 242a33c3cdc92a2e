import LittleComputer.Proofs.Calls

namespace LittleComputer

/-! Console calls that fail -/

namespace Call

theorem unfailed_single (request : Request) (reply : request.Reply) :
    ∀ call ∈ ([⟨request, .ok reply⟩] : List Call), ¬ Fails call := by
  intro call hmem
  rw [List.mem_singleton.mp hmem]
  exact not_fails_ok request reply

/-- A call that fails is the last one and the cause of the error. Without one, an error is the
program's. -/
inductive Reported {ε α : Type} (cause : ε → Fault.Cause) : List Call → Except ε α → Prop
  | unfailed {calls : List Call} {result : Except ε α}
      (hcalls : ∀ call ∈ calls, ¬ call.Fails)
      (hresult : ∀ error, result = .error error → (cause error).kind = .program) :
      Reported cause calls result
  | failed (earlier : List Call) {request : Request} {failure : ConsoleFailure} {error : ε}
      (hearlier : ∀ call ∈ earlier, ¬ call.Fails) (hcause : cause error = .console failure) :
      Reported cause (earlier ++ [⟨request, .error failure⟩]) (.error error)

namespace Reported

variable {ε α β : Type} {cause : ε → Fault.Cause} {calls : List Call}

theorem unfailed_of_ok {value : α} (hreported : Reported cause calls (.ok value : Except ε α)) :
    ∀ call ∈ calls, ¬ call.Fails := by
  cases hreported with
  | unfailed hcalls _ => exact hcalls

theorem error {error : ε} (hreported : Reported cause calls (.error error : Except ε α)) :
    Reported cause calls (.error error : Except ε β) := by
  cases hreported with
  | unfailed hcalls hresult =>
      refine .unfailed hcalls fun _ herror => ?_
      cases herror
      exact hresult error rfl
  | failed _ hearlier hcause => exact .failed _ hearlier hcause

theorem append {later : List Call} {value : α} {result : Except ε β}
    (hfirst : Reported cause calls (.ok value : Except ε α))
    (hsecond : Reported cause later result) : Reported cause (calls ++ later) result := by
  have hcalls := hfirst.unfailed_of_ok
  cases hsecond with
  | unfailed hlater hresult =>
      exact .unfailed (List.forall_mem_append.mpr ⟨hcalls, hlater⟩) hresult
  | failed _ hearlier hcause =>
      rw [← List.append_assoc]
      exact .failed _ (List.forall_mem_append.mpr ⟨hcalls, hearlier⟩) hcause

theorem of_map {result : Except ε α} {change : α → β}
    (hreported : Reported cause calls (result.map change)) : Reported cause calls result := by
  cases result with
  | ok value => exact .unfailed hreported.unfailed_of_ok nofun
  | error error => exact hreported.error

variable {result : Except ε α} (hreported : Reported cause calls result)

include hreported

theorem console_iff (failure : ConsoleFailure) :
    (∃ error, result = .error error ∧ cause error = .console failure) ↔
      ∃ request, ⟨request, .error failure⟩ ∈ calls := by
  cases hreported with
  | unfailed hcalls hresult =>
      constructor
      · intro ⟨error, herror, hcause⟩
        have hkind := hresult error herror
        rw [hcause] at hkind
        cases hkind
      · intro ⟨request, hmem⟩
        exact absurd (fails_error request failure) (hcalls _ hmem)
  | @failed earlier request actual error hearlier hcause =>
      constructor
      · intro ⟨other, herror, hother⟩
        cases herror
        rw [hcause] at hother
        cases hother
        exact ⟨request, List.mem_append_right _ (List.mem_singleton_self _)⟩
      · intro ⟨other, hmem⟩
        rcases List.mem_append.mp hmem with hmem | hmem
        · exact absurd (fails_error other failure) (hearlier _ hmem)
        · cases List.mem_singleton.mp hmem
          exact ⟨error, rfl, hcause⟩

theorem last {earlier later : List Call} {call : Call} (hcalls : calls = earlier ++ call :: later)
    (hfails : call.Fails) : later = [] ∧ ∀ call ∈ earlier, ¬ call.Fails := by
  cases hreported with
  | unfailed hunfailed =>
      exact absurd hfails (hunfailed call (hcalls ▸ List.mem_append_right _ List.mem_cons_self))
  | failed front hearlier =>
      rcases List.eq_nil_or_concat later with rfl | ⟨between, final, rfl⟩
      · obtain ⟨rfl, _⟩ := List.append_inj' hcalls rfl
        exact ⟨rfl, hearlier⟩
      · rw [List.concat_eq_append, ← List.cons_append, ← List.append_assoc] at hcalls
        obtain ⟨rfl, _⟩ := List.append_inj' hcalls rfl
        exact absurd hfails (hearlier call (List.mem_append_right _ List.mem_cons_self))

theorem unfailed_of_program {error : ε} (hresult : result = .error error)
    (hkind : (cause error).kind = .program) : ∀ call ∈ calls, ¬ call.Fails := by
  cases hreported with
  | unfailed hcalls => exact hcalls
  | failed _ _ hcause =>
      cases hresult
      rw [hcause] at hkind
      cases hkind

end Reported

end Call

namespace Console

variable {σ τ : Type}

/-- Asked the same in the same order, the console gives the answers of these calls. -/
def Repeats (console : Console σ) : σ → List Call → Prop
  | _, [] => True
  | state, ⟨request, answer⟩ :: calls =>
      (console.answer request state).1 = answer ∧
        console.Repeats (console.answer request state).2 calls

/-- A console in place of which nothing fails: where it would, no key is waiting, and the next
character is a zero. -/
def lenient (console : Console σ) : Console σ where
  answer request state :=
    match request, console.answer request state with
    | _, (.ok reply, after) => (.ok reply, after)
    | .poll, (.error _, after) => (.ok none, after)
    | .read, (.error _, after) => (.ok 0, after)
    | .write _, (.error _, after) => (.ok (), after)
    | .flush, (.error _, after) => (.ok (), after)
    | .interrupt, (.error _, after) => (.ok (), after)

theorem answer_lenient_of_ok {console : Console σ} {request : Request} {state after : σ}
    {reply : request.Reply} (hanswer : console.answer request state = (.ok reply, after)) :
    console.lenient.answer request state = (.ok reply, after) := by
  cases request <;> simp only [lenient, hanswer]

theorem exists_answer_lenient (console : Console σ) (request : Request) (state : σ) :
    ∃ reply, (console.lenient.answer request state).1 = .ok reply := by
  rcases hanswer : console.answer request state with ⟨failure | reply, after⟩
  · cases request <;> simp [lenient, hanswer]
  · exact ⟨reply, by rw [answer_lenient_of_ok hanswer]⟩

theorem repeats_lenient {console : Console σ} {state : σ} {calls : List Call}
    (hrepeats : console.Repeats state calls) (hcalls : ∀ call ∈ calls, ¬ call.Fails) :
    console.lenient.Repeats state calls := by
  induction calls generalizing state with
  | nil => trivial
  | cons call calls ih =>
      obtain ⟨request, answer⟩ := call
      obtain ⟨hanswer, hrest⟩ := hrepeats
      rcases hactual : console.answer request state with ⟨failure | reply, after⟩
      · rw [hactual] at hanswer
        subst hanswer
        exact absurd (Call.fails_error request failure) (hcalls _ List.mem_cons_self)
      · rw [hactual] at hanswer hrest
        rw [Repeats, answer_lenient_of_ok hactual]
        exact ⟨hanswer, ih hrest fun call hmem => hcalls call (List.mem_cons_of_mem _ hmem)⟩

end Console

namespace Dialogue

variable {α σ τ : Type}

theorem repeats_calls {console : Console σ} {dialogue : Dialogue α} {state : σ}
    {earlier later : List Call} (hcalls : dialogue.calls console state = earlier ++ later) :
    console.Repeats state earlier := by
  induction dialogue generalizing state earlier with
  | done value =>
      obtain ⟨rfl, _⟩ := List.append_eq_nil_iff.mp hcalls.symm
      trivial
  | note event rest ih => exact ih hcalls
  | ask request next ih =>
      cases earlier with
      | nil => trivial
      | cons call earlier =>
          obtain ⟨rfl, hrest⟩ := List.cons.inj hcalls
          exact ⟨rfl, ih _ hrest⟩

theorem calls_of_repeats {console : Console σ} {dialogue : Dialogue α} {state : σ}
    {other : Console τ} {elsewhere : τ} {earlier later : List Call} {request : Request}
    {answer : Answer request}
    (hcalls : dialogue.calls console state = earlier ++ ⟨request, answer⟩ :: later)
    (hrepeats : other.Repeats elsewhere earlier) :
    ∃ answer later, dialogue.calls other elsewhere = earlier ++ ⟨request, answer⟩ :: later := by
  induction dialogue generalizing state elsewhere earlier with
  | done value => simp at hcalls
  | note event rest ih => exact ih hcalls hrepeats
  | ask asked next ih =>
      rw [calls_ask] at hcalls ⊢
      cases earlier with
      | nil =>
          obtain ⟨hcall, _⟩ := List.cons.inj hcalls
          cases hcall
          exact ⟨_, _, rfl⟩
      | cons call earlier =>
          obtain ⟨rfl, hrest⟩ := List.cons.inj hcalls
          obtain ⟨hanswer, hagain⟩ := hrepeats
          rw [hanswer]
          obtain ⟨answer, later, hnext⟩ := ih _ hrest hagain
          exact ⟨answer, later, congrArg (List.cons _) hnext⟩

theorem unfailed_lenient (console : Console σ) (dialogue : Dialogue α) (state : σ) :
    ∀ call ∈ dialogue.calls console.lenient state, ¬ call.Fails := by
  refine forall_calls (fun request state => ?_) dialogue state
  obtain ⟨reply, hreply⟩ := console.exists_answer_lenient request state
  rw [hreply]
  exact Call.not_fails_ok request reply

end Dialogue

end LittleComputer
