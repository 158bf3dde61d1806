import EsphomeMcp.OAuth.Common

/-!
# The code store over whole runs

`issue_code` and `consume_code` in any order, with any arguments and any readings of the clock.
The history keeps every call with its outcome. The invariant ties the dict to it: what is
pending was issued and not accepted yet, and what was accepted had been issued.

The only assumption is that no code is drawn twice.
-/

namespace EsphomeMcp.OAuth

open Py

/-- A call of the store, with the clock it reads and the code it would draw. -/
inductive PkceCall (T : Type) where
  | issue (redirectUri codeChallenge : Str) (now : T) (draw : Str)
  | consume (code redirectUri codeVerifier : Str) (now : T)

/-- What a call returned. -/
inductive PkceOutcome where
  | issued (code : Option Str)
  | consumed (accepted : Except PyError Bool)

/-- A call with its outcome. -/
abbrev PkceRecord (T : Type) := PkceCall T × PkceOutcome

/-- The store and everything that was asked of it so far. -/
structure PkceRun (T : Type) where
  codes : PKCECodeStore T
  history : List (PkceRecord T)

namespace PkceRecord

variable {T : Type}

/-- The code a call handed out. -/
def issuedCode : PkceRecord T → Option Str
  | (.issue .., .issued code) => code
  | _ => none

/-- The code a call accepted. -/
def acceptedCode : PkceRecord T → Option Str
  | (.consume code _ _ _, .consumed (.ok true)) => some code
  | _ => none

end PkceRecord

/-- The codes a history handed out. -/
def drawnCodes {T : Type} (history : List (PkceRecord T)) : List Str :=
  history.filterMap PkceRecord.issuedCode

/-- How often a code was accepted. -/
def timesAccepted {T : Type} (history : List (PkceRecord T)) (code : Str) : ℕ :=
  (history.filterMap PkceRecord.acceptedCode).count code

section

variable {T : Type}

theorem timesAccepted_append (history : List (PkceRecord T)) (r : PkceRecord T) (code : Str) :
    timesAccepted (history ++ [r]) code =
      timesAccepted history code + if r.acceptedCode = some code then 1 else 0 := by
  rw [timesAccepted, timesAccepted, List.filterMap_append, List.count_append]
  congr 1
  cases hr : r.acceptedCode with
  | none => simp [hr]
  | some c =>
    by_cases hc : c = code
    · simp [hr, hc]
    · simp [hr, hc]

theorem drawnCodes_append (history : List (PkceRecord T)) (r : PkceRecord T) :
    drawnCodes (history ++ [r]) = drawnCodes history ++ r.issuedCode.toList := by
  rw [drawnCodes, drawnCodes, List.filterMap_append]
  cases hr : r.issuedCode <;> simp [hr]

theorem mem_drawnCodes {history : List (PkceRecord T)} {redirectUri codeChallenge draw code : Str}
    {now : T}
    (h : (PkceCall.issue redirectUri codeChallenge now draw, PkceOutcome.issued (some code))
      ∈ history) : code ∈ drawnCodes history :=
  List.mem_filterMap.mpr ⟨_, h, rfl⟩

end

/-! ## Consuming -/

section

variable {T : Type} [LinearOrder T]

theorem derivedChallenge_of_checkEntry {entry : PendingCode T} {redirectUri codeVerifier : Str}
    {now : T}
    (h : PKCECodeStore.checkEntry (some entry) redirectUri codeVerifier now = .ok true) :
    now ≤ entry.expires ∧ entry.redirectUri = redirectUri ∧
      derivedChallenge codeVerifier = entry.codeChallenge := by
  simp only [PKCECodeStore.checkEntry] at h
  split_ifs at h with hexp hred
  · simp at h
  · simp at h
  · cases hc : encodeAscii entry.codeChallenge with
    | none => simp [hc] at h
    | some challenge =>
      simp only [hc, Except.ok.injEq, decide_eq_true_eq] at h
      exact ⟨not_lt.mp hexp, not_not.mp hred, encodeAscii_injective h hc⟩

/-- A code that is accepted was pending, and its entry passed every check. -/
theorem pending_of_accepted {codes : PKCECodeStore T} {code redirectUri codeVerifier : Str} {now : T}
    (h : (codes.consumeCode code redirectUri codeVerifier now).1 = .ok true) :
    ∃ entry, (code, entry) ∈ codes ∧ now ≤ entry.expires ∧ entry.redirectUri = redirectUri ∧
      derivedChallenge codeVerifier = entry.codeChallenge := by
  rw [PKCECodeStore.consumeCode] at h
  split_ifs at h with hw
  · cases he : dictGet? codes code with
    | none => simp [PKCECodeStore.pop, he, PKCECodeStore.checkEntry] at h
    | some entry =>
      simp only [PKCECodeStore.pop, he] at h
      exact ⟨entry, mem_of_dictGet? he, derivedChallenge_of_checkEntry h⟩
  · simp at h

/-- Consuming adds no entry. -/
theorem mem_of_mem_consumeCode {codes : PKCECodeStore T} {code redirectUri codeVerifier : Str}
    {now : T} {e : Str × PendingCode T}
    (h : e ∈ (codes.consumeCode code redirectUri codeVerifier now).2) : e ∈ codes := by
  rw [PKCECodeStore.consumeCode] at h
  split_ifs at h
  · exact (List.mem_filter.mp h).1
  · exact h

/-- A code whose verifier is well formed is gone afterwards. -/
theorem not_mem_consumeCode {codes : PKCECodeStore T} {code codeVerifier : Str}
    (hw : isWellFormedVerifier codeVerifier = true) (redirectUri : Str) (now : T)
    (entry : PendingCode T) :
    (code, entry) ∉ (codes.consumeCode code redirectUri codeVerifier now).2 := by
  rw [PKCECodeStore.consumeCode, if_pos hw]
  intro h
  simpa [PKCECodeStore.pop] using (List.mem_filter.mp h).2

theorem isWellFormedVerifier_of_accepted {codes : PKCECodeStore T}
    {code redirectUri codeVerifier : Str} {now : T}
    (h : (codes.consumeCode code redirectUri codeVerifier now).1 = .ok true) :
    isWellFormedVerifier codeVerifier = true := by
  by_contra hw
  rw [PKCECodeStore.consumeCode, if_neg hw] at h
  simp at h

end

/-! ## Runs -/

section

variable {T : Type} [LinearOrder T] [Add T] [OfNat T 300]

/-- One call. -/
def PKCECodeStore.call (codes : PKCECodeStore T) : PkceCall T → PkceOutcome × PKCECodeStore T
  | .issue redirectUri codeChallenge now draw =>
    let (code, codes) := codes.issueCode redirectUri codeChallenge now draw
    (.issued code, codes)
  | .consume code redirectUri codeVerifier now =>
    let (accepted, codes) := codes.consumeCode code redirectUri codeVerifier now
    (.consumed accepted, codes)

/-- One call, recorded. -/
def PkceRun.step (run : PkceRun T) (call : PkceCall T) : PkceRun T :=
  ⟨(run.codes.call call).2, run.history ++ [(call, (run.codes.call call).1)]⟩

/-- `PKCECodeStore()` and a list of calls. -/
def pkceRun (calls : List (PkceCall T)) : PkceRun T := calls.foldl PkceRun.step ⟨[], []⟩

/-- The issue in a history that justifies accepting a code: bound to the redirect, answered by
the verifier and not out of time. -/
def IssuedFor (history : List (PkceRecord T)) (code redirectUri codeVerifier : Str) (now : T) :
    Prop :=
  ∃ codeChallenge issuedAt draw,
    (PkceCall.issue redirectUri codeChallenge issuedAt draw, PkceOutcome.issued (some code))
      ∈ history ∧
    derivedChallenge codeVerifier = codeChallenge ∧ now ≤ issuedAt + authCodeTtl

/-- What the dict has to do with the history. -/
structure PkceRun.Inv (run : PkceRun T) : Prop where
  cap : run.codes.length ≤ maxPendingCodes
  pending : ∀ code entry, (code, entry) ∈ run.codes →
    timesAccepted run.history code = 0 ∧
    ∃ now draw, (PkceCall.issue entry.redirectUri entry.codeChallenge now draw,
      PkceOutcome.issued (some code)) ∈ run.history ∧ entry.expires = now + authCodeTtl
  once : ∀ code, timesAccepted run.history code ≤ 1
  known : ∀ code, timesAccepted run.history code ≠ 0 → code ∈ drawnCodes run.history

/-! ## Issuing -/

/-- Issuing keeps entries, adds one, and drops none but the expired. -/
theorem mem_issueCode {codes : PKCECodeStore T} {redirectUri codeChallenge draw : Str} {now : T}
    {e : Str × PendingCode T}
    (h : e ∈ (codes.issueCode redirectUri codeChallenge now draw).2) :
    e ∈ codes ∨ ((codes.issueCode redirectUri codeChallenge now draw).1 = some draw ∧
      e = (draw, ⟨redirectUri, codeChallenge, now + authCodeTtl⟩)) := by
  rw [PKCECodeStore.issueCode] at h ⊢
  split_ifs at h ⊢ with hfull
  · exact .inl (List.mem_filter.mp h).1
  · rcases mem_dictSet h with h | h
    · exact .inl (List.mem_filter.mp h).1
    · exact .inr ⟨rfl, h⟩

theorem length_issueCode_le {codes : PKCECodeStore T} (h : codes.length ≤ maxPendingCodes)
    (redirectUri codeChallenge draw : Str) (now : T) :
    (codes.issueCode redirectUri codeChallenge now draw).2.length ≤ maxPendingCodes := by
  have hprune : (codes.prune now).length ≤ codes.length := List.length_filter_le _ _
  rw [PKCECodeStore.issueCode]
  split_ifs with hfull
  · exact hprune.trans h
  · have := length_dictSet_le draw ⟨redirectUri, codeChallenge, now + authCodeTtl⟩
      (codes.prune now)
    show (dictSet draw _ (codes.prune now)).length ≤ maxPendingCodes
    omega

/-! ## The invariant -/

omit [LinearOrder T] in
theorem PkceRun.inv_nil : (⟨[], []⟩ : PkceRun T).Inv where
  cap := Nat.zero_le _
  pending := by simp
  once := by simp [timesAccepted]
  known := by simp [timesAccepted]

/-- Issuing a code that was not drawn before keeps the invariant. -/
theorem PkceRun.Inv.issue {run : PkceRun T} (h : run.Inv) (redirectUri codeChallenge draw : Str)
    (now : T)
    (hfresh : (drawnCodes (run.step (.issue redirectUri codeChallenge now draw)).history).Nodup) :
    (run.step (.issue redirectUri codeChallenge now draw)).Inv := by
  have htimes (code : Str) : timesAccepted
      (run.step (.issue redirectUri codeChallenge now draw)).history code
      = timesAccepted run.history code := by
    rw [PkceRun.step, timesAccepted_append]
    rfl
  have hdrawn := drawnCodes_append run.history (PkceCall.issue redirectUri codeChallenge now draw,
    (run.codes.call (.issue redirectUri codeChallenge now draw)).1)
  constructor
  case cap => exact length_issueCode_le h.cap redirectUri codeChallenge draw now
  case once =>
    intro code
    rw [htimes]
    exact h.once code
  case known =>
    intro code hne
    rw [htimes] at hne
    rw [PkceRun.step, hdrawn]
    exact List.mem_append_left _ (h.known code hne)
  case pending =>
    intro code entry hmem
    rw [htimes]
    rcases mem_issueCode hmem with hold | ⟨hdraw, hnew⟩
    · obtain ⟨h0, t, d, hi, he⟩ := h.pending code entry hold
      exact ⟨h0, t, d, List.mem_append_left _ hi, he⟩
    · obtain ⟨rfl, rfl⟩ : code = draw ∧ entry = _ := by simpa using hnew
      have hout : (run.codes.call (.issue redirectUri codeChallenge now code)).1 =
          .issued (some code) := congrArg PkceOutcome.issued hdraw
      refine ⟨?_, now, code, ?_, rfl⟩
      · -- a code that was accepted before would have been drawn twice
        by_contra hne
        rw [PkceRun.step, hdrawn, hout] at hfresh
        have hdisj := (List.nodup_append.mp hfresh).2.2
        exact hdisj _ (h.known code hne) _ (List.mem_singleton_self code) rfl
      · rw [PkceRun.step, hout]
        exact List.mem_append_right _ (List.mem_singleton_self _)

/-- Consuming keeps the invariant. -/
theorem PkceRun.Inv.consume {run : PkceRun T} (h : run.Inv)
    (code redirectUri codeVerifier : Str) (now : T) :
    (run.step (.consume code redirectUri codeVerifier now)).Inv := by
  set out := run.codes.consumeCode code redirectUri codeVerifier now with hout
  have hstep : run.step (.consume code redirectUri codeVerifier now) =
      ⟨out.2, run.history ++ [(.consume code redirectUri codeVerifier now, .consumed out.1)]⟩ := rfl
  have hdrawn : drawnCodes (run.step (.consume code redirectUri codeVerifier now)).history =
      drawnCodes run.history := by
    rw [hstep, drawnCodes_append]
    simp [PkceRecord.issuedCode]
  -- either nothing was accepted, or exactly this code, which was pending
  have htimes (c : Str) : timesAccepted
      (run.step (.consume code redirectUri codeVerifier now)).history c =
      timesAccepted run.history c + if out.1 = .ok true ∧ code = c then 1 else 0 := by
    rw [hstep, timesAccepted_append]
    congr 1
    rcases ha : out.1 with e | b
    · simp [PkceRecord.acceptedCode]
    · cases b <;> simp [PkceRecord.acceptedCode]
  constructor
  case cap =>
    refine le_trans ?_ h.cap
    show out.2.length ≤ run.codes.length
    rw [hout, PKCECodeStore.consumeCode]
    split_ifs
    · exact List.length_filter_le _ _
    · exact le_rfl
  case pending =>
    intro c entry hmem
    obtain ⟨h0, t, d, hi, he⟩ := h.pending c entry (mem_of_mem_consumeCode hmem)
    refine ⟨?_, t, d, List.mem_append_left _ hi, he⟩
    rw [htimes, h0, if_neg]
    rintro ⟨hacc, rfl⟩
    exact not_mem_consumeCode (isWellFormedVerifier_of_accepted hacc) redirectUri now entry hmem
  case once =>
    intro c
    rw [htimes]
    split_ifs with hacc
    · obtain ⟨hacc, rfl⟩ := hacc
      obtain ⟨entry, hentry, -⟩ := pending_of_accepted hacc
      rw [(h.pending code entry hentry).1]
    · exact h.once c
  case known =>
    intro c hne
    rw [hdrawn]
    rw [htimes] at hne
    split_ifs at hne with hacc
    · obtain ⟨hacc, rfl⟩ := hacc
      obtain ⟨entry, hentry, -⟩ := pending_of_accepted hacc
      obtain ⟨-, t, d, hi, -⟩ := h.pending code entry hentry
      exact mem_drawnCodes hi
    · exact h.known c hne

theorem PkceRun.Inv.step {run : PkceRun T} (h : run.Inv) (call : PkceCall T)
    (hfresh : (drawnCodes (run.step call).history).Nodup) : (run.step call).Inv := by
  cases call with
  | issue redirectUri codeChallenge now draw =>
    exact h.issue redirectUri codeChallenge draw now hfresh
  | consume code redirectUri codeVerifier now => exact h.consume code redirectUri codeVerifier now

/-! ## Whole runs -/

theorem pkceRun_append (calls : List (PkceCall T)) (call : PkceCall T) :
    pkceRun (calls ++ [call]) = (pkceRun calls).step call := by
  rw [pkceRun, List.foldl_append]
  rfl

/-- What was drawn in the first calls was drawn in all of them. -/
theorem nodup_drawnCodes_of_step {run : PkceRun T} {call : PkceCall T}
    (h : (drawnCodes (run.step call).history).Nodup) : (drawnCodes run.history).Nodup := by
  rw [PkceRun.step, drawnCodes_append] at h
  exact (List.nodup_append.mp h).1

theorem pkceRun_inv (calls : List (PkceCall T))
    (hfresh : (drawnCodes (pkceRun calls).history).Nodup) : (pkceRun calls).Inv := by
  induction calls using List.reverseRecOn with
  | nil => exact PkceRun.inv_nil
  | append_singleton calls call ih =>
    rw [pkceRun_append] at hfresh ⊢
    exact (ih (nodup_drawnCodes_of_step hfresh)).step call hfresh

/-- An accepted code was issued for what the call presents. -/
theorem PkceRun.Inv.issuedFor {run : PkceRun T} (h : run.Inv) {code redirectUri codeVerifier : Str}
    {now : T} (hacc : (run.codes.consumeCode code redirectUri codeVerifier now).1 = .ok true) :
    IssuedFor run.history code redirectUri codeVerifier now := by
  obtain ⟨entry, hentry, hexp, rfl, hder⟩ := pending_of_accepted hacc
  obtain ⟨-, t, d, hi, he⟩ := h.pending code entry hentry
  exact ⟨entry.codeChallenge, t, d, hi, hder, he ▸ hexp⟩

/-- The code store after any calls whatever: it is never above its cap, a code is accepted at
most once, and the next `consume_code` accepts only a code issued for what it presents, burns
the code when its verifier is well formed, and otherwise leaves the store as it was. -/
theorem codeStore_runs (calls : List (PkceCall T))
    (hfresh : (drawnCodes (pkceRun calls).history).Nodup) :
    (pkceRun calls).codes.length ≤ maxPendingCodes ∧
    (∀ code, timesAccepted (pkceRun calls).history code ≤ 1) ∧
    ∀ code redirectUri codeVerifier now,
      let out := (pkceRun calls).codes.consumeCode code redirectUri codeVerifier now
      (out.1 = .ok true → IssuedFor (pkceRun calls).history code redirectUri codeVerifier now) ∧
      (isWellFormedVerifier codeVerifier = true →
        out.2 = (pkceRun calls).codes.filter fun e => e.1 ≠ code) ∧
      (isWellFormedVerifier codeVerifier = false →
        out.1 = .ok false ∧ out.2 = (pkceRun calls).codes) := by
  have hinv := pkceRun_inv calls hfresh
  refine ⟨hinv.cap, hinv.once, ?_⟩
  intro code redirectUri codeVerifier now out
  refine ⟨hinv.issuedFor, ?_, ?_⟩
  · intro hw
    show (PKCECodeStore.consumeCode _ _ _ _ _).2 = _
    rw [PKCECodeStore.consumeCode, if_pos hw]
    rfl
  · intro hw
    show (PKCECodeStore.consumeCode _ _ _ _ _).1 = _ ∧ (PKCECodeStore.consumeCode _ _ _ _ _).2 = _
    rw [PKCECodeStore.consumeCode, if_neg (by simp [hw])]
    exact ⟨rfl, rfl⟩

/-- A code issued for a verifier and consumed with it. -/
theorem codeStore_runs_once :
    let verifier := List.replicate 43 (ch 'v')
    let calls : List (PkceCall ℤ) :=
      [.issue (str "https://client.example/cb") (derivedChallenge verifier) 1000 (str "code"),
        .consume (str "code") (str "https://client.example/cb") verifier 1300]
    (drawnCodes (pkceRun calls).history).Nodup ∧
      timesAccepted (pkceRun calls).history (str "code") = 1 ∧
      (pkceRun calls).codes.length ≤ maxPendingCodes := by
  intro verifier calls
  have hfresh : (drawnCodes (pkceRun calls).history).Nodup := by decide +kernel
  exact ⟨hfresh, by decide +kernel, (codeStore_runs calls hfresh).1⟩

end

end EsphomeMcp.OAuth
