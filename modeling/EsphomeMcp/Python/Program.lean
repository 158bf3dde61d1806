import Mathlib.Data.List.Basic

/-!
# Programs that talk to an environment

A coroutine that awaits the outside world is a tree: it returns, it raises, or it issues a
command and goes on with whatever comes back. What comes back is either an answer of the
command's own type or an exception, and nothing else is assumed about it, so a statement
about every run of a program is a statement about every environment.

* `Prog S E α` is the tree, with `bind`, `perform` and `tryCatch`;
* `Runs p tr out` says that `p` can end in `out` after the commands and answers in `tr`;
* the `runs_*_iff` lemmas take a run apart along the program's own structure;
* `Can A p out` says that `p` can end in `out` while `A` holds of every exchange;
* `exec` runs a program against one concrete environment, for evaluation.
-/

namespace Py

/-- The commands a program may issue, and the type of what each one returns. -/
structure Signature where
  Cmd : Type
  Ans : Cmd → Type

/-- A program over the commands of `S` that may raise an `E`. -/
inductive Prog (S : Signature) (E α : Type) where
  | ret (a : α)
  | raise (e : E)
  | call (c : S.Cmd) (k : Except E (S.Ans c) → Prog S E α)

/-- One command with what came back. -/
structure Event (S : Signature) (E : Type) where
  cmd : S.Cmd
  answer : Except E (S.Ans cmd)

namespace Prog

variable {S : Signature} {E E' α β : Type}

/-- Sequencing. -/
def bind : Prog S E α → (α → Prog S E β) → Prog S E β
  | ret a, f => f a
  | raise e, _ => raise e
  | call c k, f => call c fun r => bind (k r) f

instance : Monad (Prog S E) where
  pure := ret
  bind := bind

/-- Issue a command and raise whatever it raises. -/
def perform (c : S.Cmd) : Prog S E (S.Ans c) :=
  call c fun
    | .ok a => ret a
    | .error e => raise e

/-- `try: p except: h`, where the handler may raise again. -/
def tryCatch : Prog S E α → (E → Prog S E α) → Prog S E α
  | ret a, _ => ret a
  | raise e, h => h e
  | call c k, h => call c fun r => tryCatch (k r) h

/-- Run `p` and hand over how it ended instead of raising. -/
def attempt (p : Prog S E α) : Prog S E (Except E α) :=
  tryCatch (bind p fun a => ret (.ok a)) fun e => ret (.error e)

/-- A computation without commands. -/
def ofExcept : Except E α → Prog S E α
  | .ok a => ret a
  | .error e => raise e

/-- Sequencing does not depend on where the brackets stand. -/
@[simp] theorem pure_eq (a : α) : (pure a : Prog S E α) = ret a := rfl
@[simp] theorem bind_eq (p : Prog S E α) (f : α → Prog S E β) : p >>= f = bind p f := rfl
@[simp] theorem bind_ret (a : α) (f : α → Prog S E β) : bind (ret a) f = f a := rfl
theorem bind_assoc {γ : Type} (p : Prog S E α) (f : α → Prog S E β) (g : β → Prog S E γ) :
    bind (bind p f) g = bind p fun a => bind (f a) g := by
  induction p with
  | ret a => rfl
  | raise e => rfl
  | call c k ih => exact congrArg (call c) (funext ih)

@[simp] theorem bind_raise (e : E) (f : α → Prog S E β) :
    bind (raise e : Prog S E α) f = raise e := rfl

@[simp] theorem ofExcept_ok (a : α) : ofExcept (.ok a) = (ret a : Prog S E α) := rfl
@[simp] theorem ofExcept_error (e : E) : ofExcept (.error e) = (raise e : Prog S E α) := rfl

/-- `p` can end in the given outcome after the given commands and answers. -/
inductive Runs : Prog S E α → List (Event S E) → Except E α → Prop
  | ret (a : α) : Runs (ret a) [] (.ok a)
  | raise (e : E) : Runs (raise e) [] (.error e)
  | call {c : S.Cmd} {k : Except E (S.Ans c) → Prog S E α} (r : Except E (S.Ans c))
      {tr : List (Event S E)} {out : Except E α} :
      Runs (k r) tr out → Runs (call c k) (⟨c, r⟩ :: tr) out

/-! ## Taking a run apart -/

@[simp] theorem runs_ret_iff {a : α} {tr : List (Event S E)} {out : Except E α} :
    Runs (ret a) tr out ↔ tr = [] ∧ out = .ok a := by
  constructor
  · rintro ⟨⟩
    exact ⟨rfl, rfl⟩
  · rintro ⟨rfl, rfl⟩
    exact .ret a

@[simp] theorem runs_raise_iff {e : E} {tr : List (Event S E)} {out : Except E α} :
    Runs (raise e : Prog S E α) tr out ↔ tr = [] ∧ out = .error e := by
  constructor
  · rintro ⟨⟩
    exact ⟨rfl, rfl⟩
  · rintro ⟨rfl, rfl⟩
    exact .raise e

/-- A run begins with the first command, whatever comes back. -/
theorem runs_call_iff {c : S.Cmd} {k : Except E (S.Ans c) → Prog S E α}
    {tr : List (Event S E)} {out : Except E α} :
    Runs (call c k) tr out ↔ ∃ r tr', tr = ⟨c, r⟩ :: tr' ∧ Runs (k r) tr' out := by
  constructor
  · rintro ⟨⟩
    exact ⟨_, _, rfl, ‹_›⟩
  · rintro ⟨r, tr', rfl, h⟩
    exact .call r h

/-- Of two runs of a program, one cannot go on where the other has ended. -/
theorem runs_eq_of_prefix {p : Prog S E α} {tr tr' : List (Event S E)} {out out' : Except E α}
    (h : Runs p tr out) (h' : Runs p tr' out') (hle : tr <+: tr') : tr = tr' ∧ out = out' := by
  induction p generalizing tr tr' with
  | ret a =>
    obtain ⟨rfl, rfl⟩ := runs_ret_iff.mp h
    obtain ⟨rfl, rfl⟩ := runs_ret_iff.mp h'
    exact ⟨rfl, rfl⟩
  | raise e =>
    obtain ⟨rfl, rfl⟩ := runs_raise_iff.mp h
    obtain ⟨rfl, rfl⟩ := runs_raise_iff.mp h'
    exact ⟨rfl, rfl⟩
  | call c k ih =>
    obtain ⟨r, rest, rfl, hrest⟩ := runs_call_iff.mp h
    obtain ⟨r', rest', rfl, hrest'⟩ := runs_call_iff.mp h'
    obtain ⟨hev, hrests⟩ := List.cons_prefix_cons.mp hle
    cases hev
    obtain ⟨rfl, rfl⟩ := ih r hrest hrest' hrests
    exact ⟨rfl, rfl⟩

/-- Two runs that start the same longer list of exchanges are the same. -/
theorem runs_eq_of_prefixes {p : Prog S E α} {lead lead' tr : List (Event S E)}
    {out out' : Except E α} (h : Runs p lead out) (h' : Runs p lead' out') (hle : lead <+: tr)
    (hle' : lead' <+: tr) : lead = lead' ∧ out = out' := by
  rcases List.prefix_or_prefix_of_prefix hle hle' with hshort | hlong
  · exact runs_eq_of_prefix h h' hshort
  · obtain ⟨rfl, rfl⟩ := runs_eq_of_prefix h' h hlong
    exact ⟨rfl, rfl⟩

/-- What was exchanged determines how a run ends. -/
theorem Runs.functional {p : Prog S E α} {tr : List (Event S E)} {out out' : Except E α}
    (h : Runs p tr out) (h' : Runs p tr out') : out = out' :=
  And.right <| runs_eq_of_prefix h h' List.prefix_rfl

/-- A sequence either raised in its first part, or finished it and ran the second. -/
theorem runs_bind_iff {p : Prog S E α} {f : α → Prog S E β} {tr : List (Event S E)}
    {out : Except E β} :
    Runs (bind p f) tr out ↔
      (∃ a tr₁ tr₂, Runs p tr₁ (.ok a) ∧ Runs (f a) tr₂ out ∧ tr = tr₁ ++ tr₂) ∨
      (∃ e, Runs p tr (.error e) ∧ out = .error e) := by
  induction p generalizing tr with
  | ret a => simp [bind]
  | raise e => simp [bind]
  | call c k ih =>
    rw [bind, runs_call_iff]
    constructor
    · rintro ⟨r, tr', rfl, h⟩
      rcases (ih r).mp h with ⟨a, tr₁, tr₂, h₁, h₂, rfl⟩ | ⟨e, h₁, rfl⟩
      · exact .inl ⟨a, ⟨c, r⟩ :: tr₁, tr₂, .call r h₁, h₂, rfl⟩
      · exact .inr ⟨e, .call r h₁, rfl⟩
    · rintro (⟨a, tr₁, tr₂, h₁, h₂, rfl⟩ | ⟨e, h₁, rfl⟩)
      · obtain ⟨r, tr', rfl, hk⟩ := runs_call_iff.mp h₁
        exact ⟨r, tr' ++ tr₂, rfl, (ih r).mpr (.inl ⟨a, tr', tr₂, hk, h₂, rfl⟩)⟩
      · obtain ⟨r, tr', rfl, hk⟩ := runs_call_iff.mp h₁
        exact ⟨r, tr', rfl, (ih r).mpr (.inr ⟨e, hk, rfl⟩)⟩

/-- A single command runs in one exchange. -/
theorem runs_perform_iff {c : S.Cmd} {tr : List (Event S E)} {out : Except E (S.Ans c)} :
    Runs (perform c) tr out ↔ tr = [⟨c, out⟩] := by
  rw [perform, runs_call_iff]
  constructor
  · rintro ⟨r, tr', rfl, h⟩
    cases r <;> simp_all
  · rintro rfl
    refine ⟨out, [], rfl, ?_⟩
    cases out <;> simp

/-- A guarded program either ended without raising, or its handler took over. -/
theorem runs_tryCatch_iff {p : Prog S E α} {h : E → Prog S E α} {tr : List (Event S E)}
    {out : Except E α} :
    Runs (tryCatch p h) tr out ↔
      (∃ a, Runs p tr (.ok a) ∧ out = .ok a) ∨
      (∃ e tr₁ tr₂, Runs p tr₁ (.error e) ∧ Runs (h e) tr₂ out ∧ tr = tr₁ ++ tr₂) := by
  induction p generalizing tr with
  | ret a => simp [tryCatch]
  | raise e => simp [tryCatch]
  | call c k ih =>
    rw [tryCatch, runs_call_iff]
    constructor
    · rintro ⟨r, tr', rfl, hr⟩
      rcases (ih r).mp hr with ⟨a, h₁, rfl⟩ | ⟨e, tr₁, tr₂, h₁, h₂, rfl⟩
      · exact .inl ⟨a, .call r h₁, rfl⟩
      · exact .inr ⟨e, ⟨c, r⟩ :: tr₁, tr₂, .call r h₁, h₂, rfl⟩
    · rintro (⟨a, h₁, rfl⟩ | ⟨e, tr₁, tr₂, h₁, h₂, rfl⟩)
      · obtain ⟨r, tr', rfl, hk⟩ := runs_call_iff.mp h₁
        exact ⟨r, tr', rfl, (ih r).mpr (.inl ⟨a, hk, rfl⟩)⟩
      · obtain ⟨r, tr', rfl, hk⟩ := runs_call_iff.mp h₁
        exact ⟨r, tr' ++ tr₂, rfl, (ih r).mpr (.inr ⟨e, tr', tr₂, hk, h₂, rfl⟩)⟩

/-- An attempt runs as its program does, and never raises. -/
theorem runs_attempt_iff {p : Prog S E α} {tr : List (Event S E)} {out : Except E (Except E α)} :
    Runs (attempt p) tr out ↔ ∃ r, Runs p tr r ∧ out = .ok r := by
  rw [attempt, runs_tryCatch_iff]
  simp only [runs_bind_iff, runs_ret_iff]
  constructor
  · rintro (⟨a, ⟨b, tr₁, tr₂, h, ⟨rfl, hb⟩, rfl⟩ | ⟨e, h, ha⟩, rfl⟩ | ⟨e, tr₁, tr₂,
      ⟨b, _, _, h, ⟨-, hb⟩, -⟩ | ⟨e', h, he⟩, ⟨rfl, rfl⟩, rfl⟩)
    · obtain rfl : a = .ok b := by simpa using hb
      exact ⟨.ok b, by simpa using h, rfl⟩
    · cases ha
    · cases hb
    · obtain rfl : e = e' := by simpa using he
      exact ⟨.error e, by simpa using h, rfl⟩
  · rintro ⟨r, h, rfl⟩
    cases r with
    | ok a => exact .inl ⟨.ok a, .inl ⟨a, tr, [], h, ⟨rfl, rfl⟩, by simp⟩, rfl⟩
    | error e => exact .inr ⟨e, tr, [], .inr ⟨e, h, rfl⟩, ⟨rfl, rfl⟩, by simp⟩

@[simp] theorem runs_ofExcept_iff {x : Except E α} {tr : List (Event S E)} {out : Except E α} :
    Runs (ofExcept x) tr out ↔ tr = [] ∧ out = x := by
  cases x <;> simp [ofExcept]

/-! ## Specifications -/

/-- Every run of `p` satisfies `Q`, a relation between what was exchanged and the outcome. -/
def Spec (p : Prog S E α) (Q : List (Event S E) → Except E α → Prop) : Prop :=
  ∀ tr out, Runs p tr out → Q tr out

theorem Spec.mono {p : Prog S E α} {Q R : List (Event S E) → Except E α → Prop} (h : Spec p Q)
    (hQR : ∀ tr out, Q tr out → R tr out) : Spec p R :=
  fun tr out hr => hQR tr out (h tr out hr)

theorem spec_ret_iff {a : α} {Q : List (Event S E) → Except E α → Prop} :
    Spec (ret a) Q ↔ Q [] (.ok a) := by
  simp [Spec]

theorem spec_raise_iff {e : E} {Q : List (Event S E) → Except E α → Prop} :
    Spec (raise e) Q ↔ Q [] (.error e) := by
  simp [Spec]

theorem spec_ofExcept_iff {x : Except E α} {Q : List (Event S E) → Except E α → Prop} :
    Spec (ofExcept x) Q ↔ Q [] x := by
  simp [Spec]

/-- A command is specified by what may come back. -/
theorem spec_perform_iff {c : S.Cmd} {Q : List (Event S E) → Except E (S.Ans c) → Prop} :
    Spec (perform c) Q ↔ ∀ r, Q [⟨c, r⟩] r := by
  simp only [Spec, runs_perform_iff]
  exact ⟨fun h r => h _ r rfl, fun h tr out he => he ▸ h out⟩

/-- An attempt is specified by how its program ends. -/
theorem spec_attempt_iff {p : Prog S E α}
    {Q : List (Event S E) → Except E (Except E α) → Prop} :
    Spec (attempt p) Q ↔ Spec p fun tr out => Q tr (.ok out) := by
  simp only [Spec, runs_attempt_iff]
  exact ⟨fun h tr out hr => h tr _ ⟨out, hr, rfl⟩, fun h tr out ⟨r, hr, he⟩ => he ▸ h tr r hr⟩

/-- Sequencing: what the first part established is what the second part starts from. -/
theorem Spec.bind {p : Prog S E α} {f : α → Prog S E β}
    {Q : List (Event S E) → Except E α → Prop} {R : List (Event S E) → Except E β → Prop}
    (hp : Spec p Q) (hok : ∀ a tr, Q tr (.ok a) → Spec (f a) fun tr' out => R (tr ++ tr') out)
    (herr : ∀ e tr, Q tr (.error e) → R tr (.error e)) : Spec (bind p f) R := by
  intro tr out h
  rcases runs_bind_iff.mp h with ⟨a, tr₁, tr₂, h₁, h₂, rfl⟩ | ⟨e, h₁, rfl⟩
  · exact hok a tr₁ (hp _ _ h₁) _ _ h₂
  · exact herr e tr (hp _ _ h₁)

/-- A handler starts from what the guarded part left behind when it raised. -/
theorem Spec.tryCatch {p : Prog S E α} {h : E → Prog S E α}
    {Q R : List (Event S E) → Except E α → Prop}
    (hp : Spec p Q) (hok : ∀ a tr, Q tr (.ok a) → R tr (.ok a))
    (herr : ∀ e tr, Q tr (.error e) → Spec (h e) fun tr' out => R (tr ++ tr') out) :
    Spec (tryCatch p h) R := by
  intro tr out hr
  rcases runs_tryCatch_iff.mp hr with ⟨a, h₁, rfl⟩ | ⟨e, tr₁, tr₂, h₁, h₂, rfl⟩
  · exact hok a tr (hp _ _ h₁)
  · exact herr e tr₁ (hp _ _ h₁) _ _ h₂

/-! ## Outcomes under an assumption -/

/-- `p` can end in `out` with nothing coming back that `A` excludes. -/
def Can (A : Event S E → Prop) (p : Prog S E α) (out : Except E α) : Prop :=
  ∃ tr, Runs p tr out ∧ ∀ ev ∈ tr, A ev

section

variable {A : Event S E → Prop}

@[simp] theorem can_ret_iff {a : α} {out : Except E α} : Can A (ret a) out ↔ out = .ok a := by
  simp [Can]

@[simp] theorem can_raise_iff {e : E} {out : Except E α} :
    Can A (raise e : Prog S E α) out ↔ out = .error e := by
  simp [Can]

@[simp] theorem can_ofExcept_iff {x out : Except E α} : Can A (ofExcept x) out ↔ out = x := by
  simp [Can]

/-- A program can end if every command has an answer that is not excluded. -/
theorem exists_can (hA : ∀ c, ∃ r, A ⟨c, r⟩) (p : Prog S E α) : ∃ out, Can A p out := by
  induction p with
  | ret a => exact ⟨_, can_ret_iff.mpr rfl⟩
  | raise e => exact ⟨_, can_raise_iff.mpr rfl⟩
  | call c k ih =>
    obtain ⟨r, hr⟩ := hA c
    obtain ⟨out, tr, hrun, htr⟩ := ih r
    exact ⟨out, ⟨c, r⟩ :: tr, .call _ hrun, List.forall_mem_cons.mpr ⟨hr, htr⟩⟩

/-- A command ends in what comes back. -/
theorem can_perform_iff {c : S.Cmd} {out : Except E (S.Ans c)} :
    Can A (perform c) out ↔ A ⟨c, out⟩ := by
  simp [Can, runs_perform_iff]

/-- A sequence ends as its second part does, or as its first part does when that raises. -/
theorem can_bind_iff {p : Prog S E α} {f : α → Prog S E β} {out : Except E β} :
    Can A (bind p f) out ↔ (∃ a, Can A p (.ok a) ∧ Can A (f a) out) ∨
      ∃ e, Can A p (.error e) ∧ out = .error e := by
  constructor
  · rintro ⟨tr, hrun, hA⟩
    rcases runs_bind_iff.mp hrun with ⟨a, tr₁, tr₂, h₁, h₂, rfl⟩ | ⟨e, h₁, rfl⟩
    · rw [List.forall_mem_append] at hA
      exact .inl ⟨a, ⟨tr₁, h₁, hA.1⟩, tr₂, h₂, hA.2⟩
    · exact .inr ⟨e, ⟨tr, h₁, hA⟩, rfl⟩
  · rintro (⟨a, ⟨tr₁, h₁, hA₁⟩, tr₂, h₂, hA₂⟩ | ⟨e, ⟨tr, h₁, hA⟩, rfl⟩)
    · exact ⟨tr₁ ++ tr₂, runs_bind_iff.mpr (.inl ⟨a, tr₁, tr₂, h₁, h₂, rfl⟩),
        List.forall_mem_append.mpr ⟨hA₁, hA₂⟩⟩
    · exact ⟨tr, runs_bind_iff.mpr (.inr ⟨e, h₁, rfl⟩), hA⟩

/-- What follows a program and raises nothing leaves its errors as they are. -/
theorem can_bind_error_iff {p : Prog S E α} {f : α → Prog S E β}
    (hf : ∀ a e, ¬Can A (f a) (.error e)) :
    (∃ e, Can A (bind p f) (.error e)) ↔ ∃ e, Can A p (.error e) := by
  simp only [can_bind_iff]
  constructor
  · rintro ⟨e, ⟨a, -, he⟩ | ⟨e', he, -⟩⟩
    · exact absurd he (hf a e)
    · exact ⟨e', he⟩
  · rintro ⟨e, he⟩
    exact ⟨e, .inr ⟨e, he, rfl⟩⟩

/-- An attempt hands over any way its program can end. -/
theorem can_attempt_iff {p : Prog S E α} {out : Except E (Except E α)} :
    Can A (attempt p) out ↔ ∃ r, Can A p r ∧ out = .ok r := by
  simp only [Can, runs_attempt_iff]
  constructor
  · rintro ⟨tr, ⟨r, hrun, rfl⟩, hA⟩
    exact ⟨r, ⟨tr, hrun, hA⟩, rfl⟩
  · rintro ⟨r, ⟨tr, hrun, hA⟩, rfl⟩
    exact ⟨tr, ⟨r, hrun, rfl⟩, hA⟩

end

/-! ## Commands a program can issue -/

/-- Every command the program can issue satisfies `P`, whatever the environment answers. -/
def Issues (P : S.Cmd → Prop) : Prog S E α → Prop
  | ret _ => True
  | raise _ => True
  | call c k => P c ∧ ∀ r, Issues P (k r)

/-- What a program can issue is what its runs contain. -/
theorem Issues.of_runs {P : S.Cmd → Prop} {p : Prog S E α} {tr : List (Event S E)}
    {out : Except E α} (hp : Issues P p) (h : Runs p tr out) : ∀ ev ∈ tr, P ev.cmd := by
  induction h with
  | ret => intro ev hev; cases hev
  | raise => intro ev hev; cases hev
  | call r _ ih =>
    intro ev hev
    rcases List.mem_cons.mp hev with rfl | hev
    · exact hp.1
    · exact ih (hp.2 r) ev hev

/-- A sequence issues what its two parts do. -/
theorem Issues.bind {P : S.Cmd → Prop} {p : Prog S E α} {f : α → Prog S E β}
    (hp : Issues P p) (hf : ∀ a, Issues P (f a)) : Issues P (bind p f) := by
  induction p with
  | ret a => exact hf a
  | raise e => trivial
  | call c k ih => exact ⟨hp.1, fun r => ih r (hp.2 r)⟩

/-- What follows a program may rely on what the program returns. -/
theorem Issues.bind_of_returns {P : S.Cmd → Prop} {Q : α → Prop} {p : Prog S E α}
    {f : α → Prog S E β} (hp : Issues P p) (hQ : ∀ tr a, Runs p tr (.ok a) → Q a)
    (hf : ∀ a, Q a → Issues P (f a)) : Issues P (Prog.bind p f) := by
  induction p with
  | ret a => exact hf a (hQ [] a (.ret a))
  | raise e => trivial
  | call c k ih => exact ⟨hp.1, fun r => ih r (hp.2 r) fun tr a h => hQ _ a (.call r h)⟩

/-- A guarded program issues what it and its handler do. -/
theorem Issues.tryCatch {P : S.Cmd → Prop} {p : Prog S E α} {h : E → Prog S E α}
    (hp : Issues P p) (hh : ∀ e, Issues P (h e)) : Issues P (tryCatch p h) := by
  induction p with
  | ret a => trivial
  | raise e => exact hh e
  | call c k ih => exact ⟨hp.1, fun r => ih r (hp.2 r)⟩

theorem Issues.perform {P : S.Cmd → Prop} {c : S.Cmd} (h : P c) :
    Issues P (perform c : Prog S E (S.Ans c)) := by
  refine ⟨h, fun r => ?_⟩
  cases r <;> trivial

theorem Issues.attempt {P : S.Cmd → Prop} {p : Prog S E α} (hp : Issues P p) :
    Issues P (attempt p) :=
  Issues.tryCatch (Issues.bind hp fun _ => trivial) fun _ => trivial

theorem Issues.ofExcept {P : S.Cmd → Prop} (x : Except E α) :
    Issues P (ofExcept x : Prog S E α) := by
  cases x <;> trivial

theorem Issues.ite {P : S.Cmd → Prop} {c : Prop} [Decidable c] {p q : Prog S E α}
    (hp : Issues P p) (hq : Issues P q) : Issues P (if c then p else q) := by
  split_ifs
  · exact hp
  · exact hq

/-- Weaker demands on the commands are met as well. -/
theorem Issues.mono {P Q : S.Cmd → Prop} (hPQ : ∀ c, P c → Q c) {p : Prog S E α}
    (hp : Issues P p) : Issues Q p := by
  induction p with
  | ret => trivial
  | raise => trivial
  | call c k ih => exact ⟨hPQ c hp.1, fun r => ih r (hp.2 r)⟩

/-! ## Running against one environment -/

/-- Run against an environment that answers from the commands and answers so far. -/
def exec (env : List (Event S E) → (c : S.Cmd) → Except E (S.Ans c)) :
    Prog S E α → List (Event S E) → List (Event S E) × Except E α
  | ret a, past => (past, .ok a)
  | raise e, past => (past, .error e)
  | call c k, past => exec env (k (env past c)) (past ++ [⟨c, env past c⟩])

/-- Every execution is a run. -/
theorem runs_exec (env : List (Event S E) → (c : S.Cmd) → Except E (S.Ans c))
    (p : Prog S E α) (past : List (Event S E)) :
    ∃ tr, Runs p tr (exec env p past).2 ∧ (exec env p past).1 = past ++ tr := by
  induction p generalizing past with
  | ret a => exact ⟨[], .ret a, (List.append_nil past).symm⟩
  | raise e => exact ⟨[], .raise e, (List.append_nil past).symm⟩
  | call c k ih =>
    obtain ⟨tr, hr, htr⟩ := ih (env past c) (past ++ [⟨c, env past c⟩])
    exact ⟨⟨c, env past c⟩ :: tr, .call _ hr, by rw [exec, htr, List.append_assoc]; rfl⟩

end Prog

end Py
