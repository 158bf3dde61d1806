import EsphomeMcp.Python.Program

/-!
# Programs that issue a command at most once

`OnceAfter P R past p` says that whatever the environment answers, `p` issues at most one command of
the kind `P`, and only one that `R` allows after what was exchanged before it, `past` included. In
`Once P Q p` what is allowed depends on the command alone. With nothing allowed it says that `p`
issues none.

* `Issues.onceAfter` starts from a part that issues no such command.
* `OnceAfter.bind_left` and `OnceAfter.bind` put such a part behind or before one that may. What
  follows a part can rely on the run that led there.
* `OnceAfter.of_runs` is what every run then looks like.
-/

namespace Py.Prog

variable {S : Signature} {E α β : Type}

/-- After `past` the program issues at most one command of the kind `P`, and that one satisfies `R`
with all that was exchanged before it. -/
def OnceAfter (P : S.Cmd → Prop) (R : List (Event S E) → S.Cmd → Prop) :
    List (Event S E) → Prog S E α → Prop
  | _, ret _ => True
  | _, raise _ => True
  | past, call c k => (P c → R past c ∧ ∀ r, Issues (fun c => ¬P c) (k r)) ∧
      ∀ r, OnceAfter P R (past ++ [⟨c, r⟩]) (k r)

/-- The program issues at most one command of the kind `P`, and that one satisfies `Q`. -/
def Once (P Q : S.Cmd → Prop) (p : Prog S E α) : Prop := OnceAfter P (fun _ => Q) [] p

section

variable {P : S.Cmd → Prop} {R R' : List (Event S E) → S.Cmd → Prop}
  {past past' tr : List (Event S E)}

/-- A program that issues no command of the kind. -/
theorem Issues.onceAfter {p : Prog S E α} (hp : Issues (fun c => ¬P c) p) :
    OnceAfter P R past p := by
  induction p generalizing past with
  | ret => trivial
  | raise => trivial
  | call c k ih => exact ⟨fun hc => absurd hc hp.1, fun r => ih r (hp.2 r)⟩

/-- More may be allowed, and after another past. -/
theorem OnceAfter.mono {p : Prog S E α} (hp : OnceAfter P R past p)
    (hR : ∀ tr c, R (past ++ tr) c → R' (past' ++ tr) c) : OnceAfter P R' past' p := by
  induction p generalizing past past' with
  | ret => trivial
  | raise => trivial
  | call c k ih =>
    refine ⟨fun hc => ⟨?_, (hp.1 hc).2⟩, fun r => ih r (hp.2 r) fun tr c => ?_⟩
    · have hhere := hR [] c
      rw [List.append_nil, List.append_nil] at hhere
      exact hhere (hp.1 hc).1
    · rw [List.append_assoc, List.append_assoc]
      exact hR _ c

/-- A part that may issue the command, before parts that do not. -/
theorem OnceAfter.bind_left {p : Prog S E α} {f : α → Prog S E β} (hp : OnceAfter P R past p)
    (hf : ∀ a, Issues (fun c => ¬P c) (f a)) : OnceAfter P R past (bind p f) := by
  induction p generalizing past with
  | ret a => exact (hf a).onceAfter
  | raise => trivial
  | call c k ih =>
    refine ⟨fun hc => ?_, fun r => ih r (hp.2 r)⟩
    obtain ⟨hr, hk⟩ := hp.1 hc
    exact ⟨hr, fun r => (hk r).bind hf⟩

/-- Parts that may issue the command, behind a part that does not and the run that it took. -/
theorem OnceAfter.bind {p : Prog S E α} {f : α → Prog S E β} (hp : Issues (fun c => ¬P c) p)
    (hf : ∀ a tr, Runs p tr (.ok a) → OnceAfter P R (past ++ tr) (f a)) :
    OnceAfter P R past (bind p f) := by
  induction p generalizing past with
  | ret a =>
    have hhere := hf a [] (.ret a)
    rwa [List.append_nil] at hhere
  | raise => trivial
  | call c k ih =>
    refine ⟨fun hc => absurd hc hp.1, fun r => ih r (hp.2 r) fun a tr hr => ?_⟩
    rw [List.append_assoc]
    exact hf a _ (.call r hr)

/-- A handler that issues none may follow wherever the program raised. -/
theorem OnceAfter.tryCatch {p : Prog S E α} {h : E → Prog S E α} (hp : OnceAfter P R past p)
    (hh : ∀ e, Issues (fun c => ¬P c) (h e)) : OnceAfter P R past (tryCatch p h) := by
  induction p generalizing past with
  | ret => trivial
  | raise e => exact (hh e).onceAfter
  | call c k ih =>
    refine ⟨fun hc => ?_, fun r => ih r (hp.2 r)⟩
    obtain ⟨hr, hk⟩ := hp.1 hc
    exact ⟨hr, fun r => (hk r).tryCatch hh⟩

/-- One command, allowed if it is of the kind. -/
theorem OnceAfter.perform {c : S.Cmd} (hc : P c → R past c) :
    OnceAfter P R past (perform c : Prog S E (S.Ans c)) := by
  refine ⟨fun h => ⟨hc h, fun r => ?_⟩, fun r => ?_⟩ <;> cases r <;> trivial

/-- A branch that issues it at most once, whichever is taken. -/
theorem OnceAfter.ite {c : Prop} [Decidable c] {p q : Prog S E α} (hp : OnceAfter P R past p)
    (hq : OnceAfter P R past q) : OnceAfter P R past (if c then p else q) := by
  split_ifs
  · exact hp
  · exact hq

/-- Where nothing is allowed, nothing is issued. -/
theorem OnceAfter.issues {p : Prog S E α} (hp : OnceAfter P R past p)
    (hR : ∀ tr c, ¬R (past ++ tr) c) : Issues (fun c => ¬P c) p := by
  induction p generalizing past with
  | ret => trivial
  | raise => trivial
  | call c k ih =>
    refine ⟨fun hc => ?_, fun r => ih r (hp.2 r) fun tr c => ?_⟩
    · have hhere := hR [] c
      rw [List.append_nil] at hhere
      exact hhere (hp.1 hc).1
    · rw [List.append_assoc]
      exact hR _ c

/-- Every run has at most one command of the kind, and one that is allowed after what came before. -/
theorem OnceAfter.of_runs {p : Prog S E α} {out : Except E α} (hp : OnceAfter P R past p)
    (h : Runs p tr out) :
    (∀ before ev rest, tr = before ++ ev :: rest → P ev.cmd → R (past ++ before) ev.cmd) ∧
      tr.Pairwise fun ev ev' => ¬(P ev.cmd ∧ P ev'.cmd) := by
  induction h generalizing past with
  | ret => simp
  | raise => simp
  | @call c k r tr out hr ih =>
    obtain ⟨hall, hpair⟩ := ih (hp.2 r)
    refine ⟨fun before ev rest hsplit hc => ?_, List.pairwise_cons.mpr ⟨fun ev hev => ?_, hpair⟩⟩
    · rcases List.cons_eq_append_iff.mp hsplit with ⟨rfl, hfirst⟩ | ⟨before, rfl, htail⟩
      · rw [List.cons.injEq] at hfirst
        rw [hfirst.1] at hc
        rw [List.append_nil, hfirst.1]
        exact (hp.1 hc).1
      · have hlater := hall before ev rest htail hc
        rwa [List.append_assoc] at hlater
    · rintro ⟨hc, hev'⟩
      exact ((hp.1 hc).2 r).of_runs hr ev hev hev'

end

/-! ## Where the command alone decides -/

variable {P Q : S.Cmd → Prop}

/-- What the command alone decides may be read off any past. -/
theorem Once.after {p : Prog S E α} {R : List (Event S E) → S.Cmd → Prop}
    {past : List (Event S E)} (hp : Once P Q p) (hR : ∀ tr c, Q c → R (past ++ tr) c) :
    OnceAfter P R past p := OnceAfter.mono hp hR

/-- Where nothing is allowed, nothing is issued. -/
theorem Once.issues {p : Prog S E α} (hp : Once P Q p) (hQ : ∀ c, ¬Q c) :
    Issues (fun c => ¬P c) p := OnceAfter.issues hp fun _ => hQ

theorem Once.bind_left {p : Prog S E α} {f : α → Prog S E β} (hp : Once P Q p)
    (hf : ∀ a, Issues (fun c => ¬P c) (f a)) : Once P Q (bind p f) := OnceAfter.bind_left hp hf

/-- A part that issues none, and any part behind it that may. -/
theorem Once.bind_right {p : Prog S E α} {f : α → Prog S E β} (hp : Issues (fun c => ¬P c) p)
    (hf : ∀ a, Once P Q (f a)) : Once P Q (bind p f) :=
  OnceAfter.bind hp fun a _ _ => (hf a).after fun _ _ hq => hq

theorem Once.tryCatch {p : Prog S E α} {h : E → Prog S E α} (hp : Once P Q p)
    (hh : ∀ e, Issues (fun c => ¬P c) (h e)) : Once P Q (tryCatch p h) := OnceAfter.tryCatch hp hh

theorem Once.perform {c : S.Cmd} (hc : P c → Q c) :
    Once P Q (perform c : Prog S E (S.Ans c)) := OnceAfter.perform hc

theorem Once.attempt {p : Prog S E α} (hp : Once P Q p) : Once P Q (attempt p) :=
  Once.tryCatch (Once.bind_left hp fun _ => trivial) fun _ => trivial

/-- What follows a value may rely on it. -/
theorem Once.ofExcept_bind {x : Except E α} {f : α → Prog S E β}
    (hf : ∀ a, x = .ok a → Once P Q (f a)) : Once P Q (bind (ofExcept x) f) := by
  cases x with
  | ok a => exact hf a rfl
  | error => trivial

theorem Once.ite {c : Prop} [Decidable c] {p q : Prog S E α} (hp : Once P Q p) (hq : Once P Q q) :
    Once P Q (if c then p else q) := OnceAfter.ite hp hq

end Py.Prog
