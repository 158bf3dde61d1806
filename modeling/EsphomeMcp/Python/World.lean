import EsphomeMcp.Python.Program
import Mathlib.Logic.Relation

/-!
# Programs over a shared world

A handler says what a command may answer in a world and which world it leaves behind. Over
one handler there are two ways to run programs:

* `Ends` is one program alone, from one world to another;
* `Pool` is any number of programs taking turns, one command at a time, with new ones
  starting at any moment.

`Pool` keeps the commands and answers each thread has exchanged so far, so what `Runs` says
about one program can be said of its threads (`Reachable.follows`, `Follows.runs`).
`Pool.drive` follows a schedule against a deterministic world, for evaluation.
-/

namespace Py

/-- What a command may answer in a world, and the world it leaves behind. -/
abbrev Handler (S : Signature) (E W : Type) := W → (c : S.Cmd) → Except E (S.Ans c) → W → Prop

namespace Prog

variable {S : Signature} {E α β W J : Type} {handle : Handler S E W}

/-! ## One program alone -/

/-- `p`, alone in `w`, can end in the given outcome and leave the given world. -/
inductive Ends (handle : Handler S E W) : W → Prog S E α → Except E α → W → Prop
  | ret (w : W) (a : α) : Ends handle w (ret a) (.ok a) w
  | raise (w : W) (e : E) : Ends handle w (raise e) (.error e) w
  | call {w w' w'' : W} {c : S.Cmd} {k : Except E (S.Ans c) → Prog S E α}
      {r : Except E (S.Ans c)} {out : Except E α} :
      handle w c r w' → Ends handle w' (k r) out w'' → Ends handle w (call c k) out w''

@[simp] theorem ends_ret_iff {w w' : W} {a : α} {out : Except E α} :
    Ends handle w (ret a) out w' ↔ out = .ok a ∧ w' = w := by
  constructor
  · rintro ⟨⟩
    exact ⟨rfl, rfl⟩
  · rintro ⟨rfl, rfl⟩
    exact .ret _ _

@[simp] theorem ends_raise_iff {w w' : W} {e : E} {out : Except E α} :
    Ends handle w (raise e : Prog S E α) out w' ↔ out = .error e ∧ w' = w := by
  constructor
  · rintro ⟨⟩
    exact ⟨rfl, rfl⟩
  · rintro ⟨rfl, rfl⟩
    exact .raise _ _

theorem ends_call_iff {w w' : W} {c : S.Cmd} {k : Except E (S.Ans c) → Prog S E α}
    {out : Except E α} :
    Ends handle w (call c k) out w' ↔ ∃ r w₁, handle w c r w₁ ∧ Ends handle w₁ (k r) out w' := by
  constructor
  · rintro ⟨⟩
    exact ⟨_, _, ‹_›, ‹_›⟩
  · rintro ⟨r, w₁, h, hk⟩
    exact .call h hk

@[simp] theorem ends_ofExcept_iff {w w' : W} {x out : Except E α} :
    Ends handle w (ofExcept x) out w' ↔ out = x ∧ w' = w := by
  cases x <;> simp

theorem ends_bind_iff {w w' : W} {p : Prog S E α} {f : α → Prog S E β} {out : Except E β} :
    Ends handle w (bind p f) out w' ↔
      (∃ a w₁, Ends handle w p (.ok a) w₁ ∧ Ends handle w₁ (f a) out w') ∨
      (∃ e, Ends handle w p (.error e) w' ∧ out = .error e) := by
  induction p generalizing w with
  | ret a => simp [bind]
  | raise e =>
    simp only [bind, ends_raise_iff, reduceCtorEq, false_and, exists_false, false_or,
      Except.error.injEq]
    constructor
    · rintro ⟨ho, hw⟩
      exact ⟨e, ⟨rfl, hw⟩, ho⟩
    · rintro ⟨e', ⟨rfl, hw⟩, ho⟩
      exact ⟨ho, hw⟩
  | call c k ih =>
    simp only [bind, ends_call_iff, ih]
    constructor
    · rintro ⟨r, w₁, h, ⟨a, w₂, h₁, h₂⟩ | ⟨e, h₁, ho⟩⟩
      · exact .inl ⟨a, w₂, ⟨r, w₁, h, h₁⟩, h₂⟩
      · exact .inr ⟨e, ⟨r, w₁, h, h₁⟩, ho⟩
    · rintro (⟨a, w₂, ⟨r, w₁, h, h₁⟩, h₂⟩ | ⟨e, ⟨r, w₁, h, h₁⟩, ho⟩)
      · exact ⟨r, w₁, h, .inl ⟨a, w₂, h₁, h₂⟩⟩
      · exact ⟨r, w₁, h, .inr ⟨e, h₁, ho⟩⟩

theorem ends_perform_iff {w w' : W} {c : S.Cmd} {out : Except E (S.Ans c)} :
    Ends handle w (perform c) out w' ↔ handle w c out w' := by
  rw [perform, ends_call_iff]
  constructor
  · rintro ⟨r, w₁, h, hk⟩
    cases r <;> simp_all
  · intro h
    exact ⟨out, w', h, by cases out <;> simp⟩

theorem ends_tryCatch_iff {w w' : W} {p : Prog S E α} {h : E → Prog S E α} {out : Except E α} :
    Ends handle w (tryCatch p h) out w' ↔
      (∃ a, Ends handle w p (.ok a) w' ∧ out = .ok a) ∨
      (∃ e w₁, Ends handle w p (.error e) w₁ ∧ Ends handle w₁ (h e) out w') := by
  induction p generalizing w with
  | ret a =>
    simp only [tryCatch, ends_ret_iff, reduceCtorEq, false_and, exists_false, or_false,
      Except.ok.injEq]
    constructor
    · rintro ⟨ho, hw⟩
      exact ⟨a, ⟨rfl, hw⟩, ho⟩
    · rintro ⟨b, ⟨rfl, hw⟩, ho⟩
      exact ⟨ho, hw⟩
  | raise e => simp [tryCatch]
  | call c k ih =>
    simp only [tryCatch, ends_call_iff, ih]
    constructor
    · rintro ⟨r, w₁, hw, ⟨a, h₁, ho⟩ | ⟨e, w₂, h₁, h₂⟩⟩
      · exact .inl ⟨a, ⟨r, w₁, hw, h₁⟩, ho⟩
      · exact .inr ⟨e, w₂, ⟨r, w₁, hw, h₁⟩, h₂⟩
    · rintro (⟨a, ⟨r, w₁, hw, h₁⟩, ho⟩ | ⟨e, w₂, ⟨r, w₁, hw, h₁⟩, h₂⟩)
      · exact ⟨r, w₁, hw, .inl ⟨a, h₁, ho⟩⟩
      · exact ⟨r, w₁, hw, .inr ⟨e, w₂, h₁, h₂⟩⟩

/-- Run alone against a deterministic world. -/
def execIn (serve : W → (c : S.Cmd) → Except E (S.Ans c) × W) : W → Prog S E α → Except E α × W
  | w, ret a => (.ok a, w)
  | w, raise e => (.error e, w)
  | w, call c k => execIn serve (serve w c).2 (k (serve w c).1)

theorem ends_execIn {serve : W → (c : S.Cmd) → Except E (S.Ans c) × W}
    (hserve : ∀ w c, handle w c (serve w c).1 (serve w c).2) (w : W) (p : Prog S E α) :
    Ends handle w p (execIn serve w p).1 (execIn serve w p).2 := by
  induction p generalizing w with
  | ret a => exact .ret _ _
  | raise e => exact .raise _ _
  | call c k ih => exact .call (hserve w c) (ih _ _)

/-! ## Pre- and postconditions -/

theorem ends_attempt_iff {w w' : W} {p : Prog S E α} {out : Except E (Except E α)} :
    Ends handle w (attempt p) out w' ↔ ∃ r, Ends handle w p r w' ∧ out = .ok r := by
  simp only [attempt, ends_tryCatch_iff, ends_bind_iff, ends_ret_iff]
  constructor
  · rintro (⟨a, ⟨b, w₁, h, he, rfl⟩ | ⟨e, -, he⟩, rfl⟩ |
      ⟨e, w₁, ⟨b, w₂, -, he, -⟩ | ⟨e', h, he⟩, rfl, rfl⟩)
    · exact ⟨.ok b, h, he⟩
    · cases he
    · cases he
    · cases he
      exact ⟨_, h, rfl⟩
  · rintro ⟨r, h, rfl⟩
    cases r with
    | ok a => exact .inl ⟨_, .inl ⟨a, w', h, rfl, rfl⟩, rfl⟩
    | error e => exact .inr ⟨e, w', .inr ⟨e, h, rfl⟩, rfl, rfl⟩

/-- From a world in `P`, every end of `p` is in `Q`. -/
def Triple (handle : Handler S E W) (P : W → Prop) (p : Prog S E α)
    (Q : Except E α → W → Prop) : Prop :=
  ∀ w out w', P w → Ends handle w p out w' → Q out w'

section

variable {P P' : W → Prop} {p : Prog S E α} {Q Q' : Except E α → W → Prop}

theorem triple_ret {a : α} (h : ∀ w, P w → Q (.ok a) w) : Triple handle P (ret a) Q := by
  intro w out w' hP hends
  obtain ⟨rfl, rfl⟩ := ends_ret_iff.mp hends
  exact h w' hP

theorem triple_ofExcept {x : Except E α} (h : ∀ w, P w → Q x w) :
    Triple handle P (ofExcept x) Q := by
  intro w out w' hP hends
  obtain ⟨rfl, rfl⟩ := ends_ofExcept_iff.mp hends
  exact h w' hP

theorem triple_raise {e : E} (h : ∀ w, P w → Q (.error e) w) : Triple handle P (raise e) Q :=
  triple_ofExcept (x := .error e) h

theorem triple_perform {c : S.Cmd} {Q : Except E (S.Ans c) → W → Prop}
    (h : ∀ w r w', P w → handle w c r w' → Q r w') : Triple handle P (perform c) Q :=
  fun w out w' hP hends => h w out w' hP (ends_perform_iff.mp hends)

theorem Triple.mono (h : Triple handle P p Q) (hP : ∀ w, P' w → P w)
    (hQ : ∀ out w, Q out w → Q' out w) : Triple handle P' p Q' :=
  fun w out w' hw hends => hQ out w' (h w out w' (hP w hw) hends)

theorem Triple.bind {f : α → Prog S E β} {R : Except E β → W → Prop} (h : Triple handle P p Q)
    (hok : ∀ a, Triple handle (Q (.ok a)) (f a) R)
    (herr : ∀ e w, Q (.error e) w → R (.error e) w) : Triple handle P (bind p f) R := by
  intro w out w' hP hends
  rcases ends_bind_iff.mp hends with ⟨a, w₁, h₁, h₂⟩ | ⟨e, h₁, rfl⟩
  · exact hok a w₁ out w' (h w _ w₁ hP h₁) h₂
  · exact herr e w' (h w _ w' hP h₁)

/-- What follows an attempt starts from however it ended. -/
theorem Triple.bind_attempt {f : Except E α → Prog S E β} {R : Except E β → W → Prop}
    (h : Triple handle P p Q) (hf : ∀ r, Triple handle (Q r) (f r) R) :
    Triple handle P (Prog.bind (attempt p) f) R := by
  intro w out w' hP hends
  rcases ends_bind_iff.mp hends with ⟨a, w₁, h₁, h₂⟩ | ⟨e, h₁, rfl⟩
  · obtain ⟨r, hr, he⟩ := ends_attempt_iff.mp h₁
    cases he
    exact hf a w₁ out w' (h w a w₁ hP hr) h₂
  · obtain ⟨r, -, he⟩ := ends_attempt_iff.mp h₁
    cases he

end

/-! ## What is left of a program -/

/-- After the commands and answers in the list, `q` is what is left of `p`. -/
inductive Follows : Prog S E α → List (Event S E) → Prog S E α → Prop
  | refl (p : Prog S E α) : Follows p [] p
  | call {c : S.Cmd} {k : Except E (S.Ans c) → Prog S E α} (r : Except E (S.Ans c))
      {tr : List (Event S E)} {q : Prog S E α} :
      Follows (k r) tr q → Follows (call c k) (⟨c, r⟩ :: tr) q

theorem Follows.snoc {p : Prog S E α} {tr : List (Event S E)} {c : S.Cmd}
    {k : Except E (S.Ans c) → Prog S E α} (h : Follows p tr (Prog.call c k)) (r : Except E (S.Ans c)) :
    Follows p (tr ++ [⟨c, r⟩]) (k r) := by
  generalize hq : Prog.call c k = q at h
  induction h with
  | refl p =>
    subst hq
    exact .call r (.refl _)
  | call r' _ ih => exact .call r' (ih hq)

/-- A run of what is left completes to a run of the whole. -/
theorem Follows.runs {p q : Prog S E α} {tr tr' : List (Event S E)} {out : Except E α}
    (h : Follows p tr q) (hq : Runs q tr' out) : Runs p (tr ++ tr') out := by
  induction h with
  | refl p => exact hq
  | call r _ ih => exact .call r (ih hq)

theorem Follows.issues {P : S.Cmd → Prop} {p q : Prog S E α} {tr : List (Event S E)}
    (h : Follows p tr q) (hp : Issues P p) : Issues P q := by
  induction h with
  | refl p => exact hp
  | call r _ ih => exact ih (hp.2 r)

theorem Follows.of_ofExcept {x : Except E α} {tr : List (Event S E)} {q : Prog S E α}
    (h : Follows (ofExcept x) tr q) : tr = [] ∧ q = ofExcept x := by
  cases x with
  | ok a =>
    cases h
    exact ⟨rfl, rfl⟩
  | error e =>
    cases h
    exact ⟨rfl, rfl⟩

/-- A program that starts with a command is before it, or goes on with what came back. -/
theorem Follows.of_bind_perform {c : S.Cmd} {f : S.Ans c → Prog S E α} {tr : List (Event S E)}
    {q : Prog S E α} (h : Follows (bind (perform c) f) tr q) :
    (tr = [] ∧ q = bind (perform c) f) ∨
      ∃ r tr', tr = ⟨c, r⟩ :: tr' ∧ Follows (bind (ofExcept r) f) tr' q := by
  cases h with
  | refl => exact .inl ⟨rfl, rfl⟩
  | call r h =>
    refine .inr ⟨r, _, rfl, ?_⟩
    cases r <;> exact h

/-- How a program that is over has ended. -/
def outcome? : Prog S E α → Option (Except E α)
  | ret a => some (.ok a)
  | raise e => some (.error e)
  | call .. => none

theorem eq_ofExcept_of_outcome? {p : Prog S E α} {out : Except E α} (h : p.outcome? = some out) :
    p = ofExcept out := by
  cases p with
  | ret a =>
    cases h
    rfl
  | raise e =>
    cases h
    rfl
  | call c k => cases h

/-- A program runs to an end under any answers to its commands. -/
theorem exists_runs_answering (answer : ∀ c : S.Cmd, Except E (S.Ans c)) (p : Prog S E α) :
    ∃ tr out, Runs p tr out ∧ ∀ ev ∈ tr, ev.answer = answer ev.cmd := by
  induction p with
  | ret a => exact ⟨[], _, .ret a, fun _ hev => absurd hev List.not_mem_nil⟩
  | raise e => exact ⟨[], _, .raise e, fun _ hev => absurd hev List.not_mem_nil⟩
  | call c k ih =>
    obtain ⟨tr, out, h, hanswers⟩ := ih (answer c)
    exact ⟨⟨c, answer c⟩ :: tr, out, .call _ h, List.forall_mem_cons.mpr ⟨rfl, hanswers⟩⟩

/-- Every program can be run to an end. -/
theorem exists_runs [Inhabited E] (p : Prog S E α) : ∃ tr out, Runs p tr out := by
  obtain ⟨tr, out, h, -⟩ := exists_runs_answering (fun _ => .error default) p
  exact ⟨tr, out, h⟩

/-! ## Programs taking turns -/

/-- One program under way: what it was started for, what it has exchanged, what is left. -/
structure Thread (S : Signature) (E α J : Type) where
  job : J
  past : List (Event S E)
  rest : Prog S E α

/-- The world and the programs under way in it, finished ones included. -/
structure Pool (S : Signature) (E α J W : Type) where
  world : W
  threads : List (Thread S E α J)

namespace Pool

variable {start : J → Prog S E α}

/-- Thread `i` issues its next command. -/
inductive Turn (handle : Handler S E W) (i : ℕ) : Pool S E α J W → Pool S E α J W → Prop
  | mk {w w' : W} {ts : List (Thread S E α J)} {j : J} {past : List (Event S E)} {c : S.Cmd}
      {k : Except E (S.Ans c) → Prog S E α} {r : Except E (S.Ans c)} :
      ts[i]? = some ⟨j, past, .call c k⟩ → handle w c r w' →
      Turn handle i ⟨w, ts⟩ ⟨w', ts.set i ⟨j, past ++ [⟨c, r⟩], k r⟩⟩

/-- A new program starts, or one under way takes a turn. -/
inductive Step (start : J → Prog S E α) (handle : Handler S E W) :
    Pool S E α J W → Pool S E α J W → Prop
  | spawn (j : J) (w : W) (ts : List (Thread S E α J)) :
      Step start handle ⟨w, ts⟩ ⟨w, ts ++ [⟨j, [], start j⟩]⟩
  | turn {i : ℕ} {σ σ' : Pool S E α J W} : Turn handle i σ σ' → Step start handle σ σ'

/-- Any number of steps. -/
abbrev Steps (start : J → Prog S E α) (handle : Handler S E W) :
    Pool S E α J W → Pool S E α J W → Prop :=
  Relation.ReflTransGen (Step start handle)

/-- What can be reached from a world in which nothing is under way. -/
def Reachable (start : J → Prog S E α) (handle : Handler S E W) (w₀ : W)
    (σ : Pool S E α J W) : Prop :=
  Steps start handle ⟨w₀, []⟩ σ

/-- A world property that every command keeps is never lost. -/
theorem Steps.preserves {P : W → Prop} (hP : ∀ w c r w', handle w c r w' → P w → P w')
    {σ σ' : Pool S E α J W} (h : Steps start handle σ σ') (hw : P σ.world) : P σ'.world := by
  induction h with
  | refl => exact hw
  | tail _ hs ih =>
    cases hs with
    | spawn => exact ih
    | turn ht =>
      cases ht with
      | mk _ hh => exact hP _ _ _ _ hh ih

/-- A run in which the world allows less is a run. -/
theorem Steps.mono {handle' : Handler S E W}
    (hsub : ∀ w c r w', handle w c r w' → handle' w c r w') {σ σ' : Pool S E α J W}
    (h : Steps start handle σ σ') : Steps start handle' σ σ' := by
  refine Relation.ReflTransGen.mono (fun σ σ' hs => ?_) σ σ' h
  cases hs with
  | spawn j w ts => exact .spawn j w ts
  | turn ht =>
    cases ht with
    | mk hi hh => exact .turn (.mk hi (hsub _ _ _ _ hh))

/-- What is left of a thread is what its past leaves of the program it started as. -/
theorem Reachable.follows {w₀ : W} {σ : Pool S E α J W} (h : Reachable start handle w₀ σ) :
    ∀ t ∈ σ.threads, Follows (start t.job) t.past t.rest := by
  induction h with
  | refl => nofun
  | tail _ hs ih =>
    cases hs with
    | spawn j w ts =>
      intro t ht
      rcases List.mem_append.mp ht with ht | ht
      · exact ih t ht
      · rw [List.mem_singleton.mp ht]
        exact .refl _
    | turn ht =>
      cases ht with
      | mk hi _ =>
        intro t ht
        rcases List.mem_or_eq_of_mem_set ht with ht | rfl
        · exact ih t ht
        · exact (ih _ (List.mem_of_getElem? hi)).snoc _

/-- A world invariant `I` for commands within `can`, together with a property `ok` of single
exchanges that no later command spoils. -/
theorem Reachable.events (can : S.Cmd → Prop) (I : W → Prop) (ok : W → Event S E → Prop) {w₀ : W}
    (hcan : ∀ j, Issues can (start j)) (hI₀ : I w₀)
    (hnew : ∀ w c r w', I w → can c → handle w c r w' → I w' ∧ ok w' ⟨c, r⟩)
    (hold : ∀ w c r w' ev, handle w c r w' → ok w ev → ok w' ev)
    {σ : Pool S E α J W} (h : Reachable start handle w₀ σ) :
    I σ.world ∧ ∀ t ∈ σ.threads, ∀ ev ∈ t.past, ok σ.world ev := by
  induction h with
  | refl => exact ⟨hI₀, nofun⟩
  | tail hr hs ih =>
    obtain ⟨hI, hok⟩ := ih
    cases hs with
    | spawn j w ts =>
      refine ⟨hI, fun t ht ev hev => ?_⟩
      rcases List.mem_append.mp ht with ht | ht
      · exact hok t ht ev hev
      · rw [List.mem_singleton.mp ht] at hev
        cases hev
    | turn ht =>
      cases ht with
      | @mk w w' ts j past c k r hi hh =>
        have hmem : (⟨j, past, .call c k⟩ : Thread S E α J) ∈ ts := List.mem_of_getElem? hi
        have hissues := (Reachable.follows hr _ hmem).issues (hcan j)
        obtain ⟨hI', hok'⟩ := hnew w c r w' hI hissues.1 hh
        refine ⟨hI', fun t ht ev hev => ?_⟩
        rcases List.mem_or_eq_of_mem_set ht with ht | rfl
        · exact hold _ _ _ _ _ hh (hok t ht ev hev)
        · rcases List.mem_append.mp hev with hev | hev
          · exact hold _ _ _ _ _ hh (hok _ hmem ev hev)
          · rw [List.mem_singleton.mp hev]
            exact hok'

/-! ## Following a schedule -/

/-- One entry of a schedule. -/
inductive Move (J : Type) where
  | spawn (j : J)
  | turn (i : ℕ)

/-- The pool after one entry of a schedule, against a deterministic world. -/
def move (start : J → Prog S E α) (serve : W → (c : S.Cmd) → Except E (S.Ans c) × W)
    (σ : Pool S E α J W) : Move J → Pool S E α J W
  | .spawn j => ⟨σ.world, σ.threads ++ [⟨j, [], start j⟩]⟩
  | .turn i =>
    match σ.threads[i]? with
    | some ⟨j, past, .call c k⟩ =>
      ⟨(serve σ.world c).2, σ.threads.set i
        ⟨j, past ++ [⟨c, (serve σ.world c).1⟩], k (serve σ.world c).1⟩⟩
    | _ => σ

/-- The pool after a schedule. -/
def drive (start : J → Prog S E α) (serve : W → (c : S.Cmd) → Except E (S.Ans c) × W)
    (σ : Pool S E α J W) (schedule : List (Move J)) : Pool S E α J W :=
  schedule.foldl (move start serve) σ

theorem steps_move {serve : W → (c : S.Cmd) → Except E (S.Ans c) × W}
    (hserve : ∀ w c, handle w c (serve w c).1 (serve w c).2) (σ : Pool S E α J W) (m : Move J) :
    Steps start handle σ (move start serve σ m) := by
  cases m with
  | spawn j => exact .single (.spawn j _ _)
  | turn i =>
    rw [move]
    split
    · rename_i j past c k hi
      exact .single (.turn (.mk hi (hserve _ _)))
    · exact .refl

theorem steps_drive {serve : W → (c : S.Cmd) → Except E (S.Ans c) × W}
    (hserve : ∀ w c, handle w c (serve w c).1 (serve w c).2) (σ : Pool S E α J W)
    (schedule : List (Move J)) : Steps start handle σ (drive start serve σ schedule) := by
  induction schedule generalizing σ with
  | nil => exact .refl
  | cons m schedule ih => exact (steps_move hserve σ m).trans (ih _)

/-- The pool after one entry of a schedule, against a deterministic world that may refuse a
command; a refused turn is skipped. -/
def tryMove (start : J → Prog S E α) (serve : W → (c : S.Cmd) → Option (Except E (S.Ans c) × W))
    (σ : Pool S E α J W) : Move J → Pool S E α J W
  | .spawn j => ⟨σ.world, σ.threads ++ [⟨j, [], start j⟩]⟩
  | .turn i =>
    match σ.threads[i]? with
    | some ⟨j, past, .call c k⟩ =>
      match serve σ.world c with
      | some (r, w) => ⟨w, σ.threads.set i ⟨j, past ++ [⟨c, r⟩], k r⟩⟩
      | none => σ
    | _ => σ

theorem steps_tryMove {serve : W → (c : S.Cmd) → Option (Except E (S.Ans c) × W)}
    (hserve : ∀ w c r w', serve w c = some (r, w') → handle w c r w') (σ : Pool S E α J W)
    (m : Move J) : Steps start handle σ (tryMove start serve σ m) := by
  cases m with
  | spawn j => exact .single (.spawn j _ _)
  | turn i =>
    rw [tryMove]
    split
    · rename_i j past c k hi
      split
      · rename_i r w hr
        exact .single (.turn (.mk hi (hserve _ _ _ _ hr)))
      · exact .refl
    · exact .refl

theorem steps_tryMoves {serve : W → (c : S.Cmd) → Option (Except E (S.Ans c) × W)}
    (hserve : ∀ w c r w', serve w c = some (r, w') → handle w c r w') (σ : Pool S E α J W)
    (schedule : List (Move J)) :
    Steps start handle σ (schedule.foldl (tryMove start serve) σ) := by
  induction schedule generalizing σ with
  | nil => exact .refl
  | cons m schedule ih => exact (steps_tryMove hserve σ m).trans (ih _)

end Pool

end Prog

end Py
