import EsphomeMcp.Python.Program

/-!
# Two runs side by side

`Alike A Q p p'` relates two programs that issue their commands in step, as long as what comes back
is related by `A`, and that end in values related by `Q` or in the same exception. It is closed
under the constructs of programs, and a program is alike to itself when none of its commands can be
answered in two ways that `A` relates (`Alike.refl`).
-/

namespace Py

namespace Prog

variable {S : Signature} {E α α' β β' : Type}

/-- The same exception, or related values. -/
def OutcomesAlike (Q : α → α' → Prop) : Except E α → Except E α' → Prop
  | .ok a, .ok a' => Q a a'
  | .error e, .error e' => e = e'
  | _, _ => False

theorem outcomesAlike_eq_iff {out out' : Except E α} :
    OutcomesAlike (· = ·) out out' ↔ out = out' := by
  cases out <;> cases out' <;> simp [OutcomesAlike]

/-- Exchanges related one by one, as long as both lists last. -/
def TracesAlike (A : Event S E → Event S E → Prop) : List (Event S E) → List (Event S E) → Prop
  | ev :: tr, ev' :: tr' => A ev ev' ∧ TracesAlike A tr tr'
  | _, _ => True

/-- Two programs in step. -/
inductive Alike (A : Event S E → Event S E → Prop) (Q : α → α' → Prop) :
    Prog S E α → Prog S E α' → Prop
  | ret {a : α} {a' : α'} : Q a a' → Alike A Q (ret a) (ret a')
  | raise (e : E) : Alike A Q (raise e) (raise e)
  | call {c c' : S.Cmd} {k : Except E (S.Ans c) → Prog S E α}
      {k' : Except E (S.Ans c') → Prog S E α'} :
      (∀ r r', A ⟨c, r⟩ ⟨c', r'⟩ → Alike A Q (k r) (k' r')) → Alike A Q (call c k) (call c' k')

section

variable {A : Event S E → Event S E → Prop} {Q : α → α' → Prop} {R : β → β' → Prop}
  {p : Prog S E α} {p' : Prog S E α'}

/-- Programs in step that see related answers end alike, and leave what follows in step. -/
theorem Alike.runs_append (h : Alike A Q p p') {tr tr' rest rest' : List (Event S E)}
    {out : Except E α} {out' : Except E α'} (hrun : Runs p tr out) (hrun' : Runs p' tr' out')
    (htr : TracesAlike A (tr ++ rest) (tr' ++ rest')) :
    OutcomesAlike Q out out' ∧ TracesAlike A rest rest' := by
  induction h generalizing tr tr' with
  | ret hQ =>
    obtain ⟨rfl, rfl⟩ := runs_ret_iff.mp hrun
    obtain ⟨rfl, rfl⟩ := runs_ret_iff.mp hrun'
    exact ⟨hQ, htr⟩
  | raise e =>
    obtain ⟨rfl, rfl⟩ := runs_raise_iff.mp hrun
    obtain ⟨rfl, rfl⟩ := runs_raise_iff.mp hrun'
    exact ⟨rfl, htr⟩
  | call _ ih =>
    obtain ⟨r, tr₁, rfl, hrest⟩ := runs_call_iff.mp hrun
    obtain ⟨r', tr₁', rfl, hrest'⟩ := runs_call_iff.mp hrun'
    exact ih r r' htr.1 hrest hrest' htr.2

/-- Programs in step that see related answers end alike. -/
theorem Alike.runs (h : Alike A Q p p') {tr tr' : List (Event S E)} {out : Except E α}
    {out' : Except E α'} (hrun : Runs p tr out) (hrun' : Runs p' tr' out')
    (htr : TracesAlike A tr tr') : OutcomesAlike Q out out' := by
  have hall : TracesAlike A (tr ++ []) (tr' ++ []) := by simpa using htr
  exact (h.runs_append hrun hrun' hall).1

theorem Alike.mono {Q' : α → α' → Prop} (h : Alike A Q p p') (hQ : ∀ a a', Q a a' → Q' a a') :
    Alike A Q' p p' := by
  induction h with
  | ret ha => exact .ret (hQ _ _ ha)
  | raise e => exact .raise e
  | call _ ih => exact .call ih

theorem Alike.bind {f : α → Prog S E β} {f' : α' → Prog S E β'} (h : Alike A Q p p')
    (hf : ∀ a a', Q a a' → Alike A R (f a) (f' a')) : Alike A R (bind p f) (bind p' f') := by
  induction h with
  | ret ha => exact hf _ _ ha
  | raise e => exact .raise e
  | call _ ih => exact .call ih

theorem Alike.ite {c : Prop} [Decidable c] {q : Prog S E α} {q' : Prog S E α'} (hp : Alike A Q p p')
    (hq : Alike A Q q q') : Alike A Q (if c then p else q) (if c then p' else q') := by
  split_ifs
  · exact hp
  · exact hq

theorem Alike.tryCatch {h : E → Prog S E α} {h' : E → Prog S E α'} (hp : Alike A Q p p')
    (hh : ∀ e, Alike A Q (h e) (h' e)) : Alike A Q (tryCatch p h) (tryCatch p' h') := by
  induction hp with
  | ret ha => exact .ret ha
  | raise e => exact hh e
  | call _ ih => exact .call ih

theorem Alike.attempt (h : Alike A Q p p') :
    Alike A (OutcomesAlike Q) (attempt p) (attempt p') := by
  induction h with
  | ret ha => exact .ret ha
  | raise e => exact .ret rfl
  | call _ ih => exact .call ih

/-- One command on each side, with answers that are alike as outcomes. -/
theorem Alike.perform {c c' : S.Cmd} {Q : S.Ans c → S.Ans c' → Prop}
    (h : ∀ r r', A ⟨c, r⟩ ⟨c', r'⟩ → OutcomesAlike Q r r') :
    Alike A Q (perform c : Prog S E (S.Ans c)) (perform c') := by
  refine .call fun r r' hA => ?_
  have hout := h r r' hA
  cases r <;> cases r' <;> first | exact .ret hout | exact hout ▸ .raise _ | exact hout.elim

/-- A program whose commands are always answered the same is in step with itself. -/
theorem Alike.refl {Q : α → α → Prop} {p : Prog S E α}
    (h : Issues (fun c => ∀ r r', A ⟨c, r⟩ ⟨c, r'⟩ → r = r') p) (hQ : ∀ a, Q a a) :
    Alike A Q p p := by
  induction p with
  | ret a => exact .ret (hQ a)
  | raise e => exact .raise e
  | call c k ih =>
    refine .call fun r r' hA => ?_
    obtain rfl := h.1 r r' hA
    exact ih r (h.2 r)

end

end Prog

end Py
