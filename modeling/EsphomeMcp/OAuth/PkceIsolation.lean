import EsphomeMcp.OAuth.Pkce

/-!
# Other clients of the code store

Two runs of the store: a pending code is consumed at once, or after any calls of other clients.
Consuming leaves other codes alone and issuing drops the expired ones, so the runs can only differ
in what they take for expired. An entry that expires this very instant is dropped by `issue_code`
and accepted by `consume_code`.
-/

namespace EsphomeMcp.OAuth

open Py

/-! ## Calls of other clients -/

namespace PkceCall

variable {T : Type}

/-- The clock as the call reads it. -/
def now : PkceCall T → T
  | issue _ _ now _ => now
  | consume _ _ _ now => now

/-- The call draws or consumes another code. -/
def IsOther (code : Str) : PkceCall T → Prop
  | issue _ _ _ draw => draw ≠ code
  | consume other _ _ _ => other ≠ code

/-- The call is one of `issue_code`. -/
def IsIssue : PkceCall T → Prop
  | issue .. => True
  | consume .. => False

/-- The call is an issue that takes the entry for expired. -/
def drops [LinearOrder T] (entry : PendingCode T) : PkceCall T → Bool
  | issue _ _ now _ => entry.expires ≤ now
  | consume .. => false

end PkceCall

section

variable {T : Type} [LinearOrder T] [Add T] [OfNat T 300]

/-- The store after some calls. -/
def PKCECodeStore.afterCalls (codes : PKCECodeStore T) (calls : List (PkceCall T)) :
    PKCECodeStore T :=
  calls.foldl (fun codes call => (codes.call call).2) codes

/-! ## One entry -/

/-- The store stays a dict. -/
theorem nodup_keys_call {codes : PKCECodeStore T} (h : (codes.map Prod.fst).Nodup)
    (call : PkceCall T) : ((codes.call call).2.map Prod.fst).Nodup := by
  cases call with
  | issue redirectUri codeChallenge now draw =>
    have hpruned := nodup_keys_filter (fun e => now < e.2.expires) h
    simp only [PKCECodeStore.call, PKCECodeStore.issueCode]
    split_ifs
    · exact hpruned
    · exact nodup_keys_dictSet _ _ hpruned
  | consume code redirectUri codeVerifier now =>
    simp only [PKCECodeStore.call, PKCECodeStore.consumeCode]
    split_ifs
    · exact nodup_keys_filter _ h
    · exact h

/-- What a call of another client does to a pending code: an issue drops it once it has expired,
and nothing else touches it. -/
theorem dictGet?_call {codes : PKCECodeStore T} {code : Str} {call : PkceCall T}
    (hdict : (codes.map Prod.fst).Nodup) (hother : call.IsOther code) :
    dictGet? (codes.call call).2 code =
      (dictGet? codes code).filter fun entry => !call.drops entry := by
  cases call with
  | issue redirectUri codeChallenge now draw =>
    have hpruned : dictGet? (codes.prune now) code =
        (dictGet? codes code).filter fun entry => now < entry.expires := dictGet?_filter hdict
    have hsame : (fun entry : PendingCode T => decide (now < entry.expires)) =
        fun entry => !(PkceCall.issue redirectUri codeChallenge now draw).drops entry := by
      funext entry
      show decide (now < entry.expires) = !decide (entry.expires ≤ now)
      rw [← decide_not, decide_eq_decide, not_le]
    rw [hsame] at hpruned
    simp only [PKCECodeStore.call, PKCECodeStore.issueCode]
    split_ifs
    · exact hpruned
    · rw [dictGet?_dictSet, if_neg (Ne.symm hother), hpruned]
  | consume other redirectUri codeVerifier now =>
    have hkeep : ∀ o : Option (PendingCode T), o.filter (fun entry =>
        !(PkceCall.consume other redirectUri codeVerifier now).drops entry) = o := by
      intro o
      cases o <;> rfl
    rw [hkeep]
    simp only [PKCECodeStore.call, PKCECodeStore.consumeCode]
    split_ifs
    · show dictGet? (codes.filter fun e => e.1 ≠ other) code = _
      rw [dictGet?_filter hdict]
      cases dictGet? codes code with
      | none => rfl
      | some entry =>
        have hne : code ≠ other := Ne.symm hother
        simp [hne]
    · rfl

/-! ## Whole runs -/

/-- After any calls of other clients a pending code has its entry still, unless one of them
dropped it. -/
theorem dictGet?_afterCalls {codes : PKCECodeStore T} {code : Str} {calls : List (PkceCall T)}
    (hdict : (codes.map Prod.fst).Nodup) (hother : ∀ call ∈ calls, call.IsOther code) :
    dictGet? (codes.afterCalls calls) code =
      (dictGet? codes code).filter fun entry => calls.all fun call => !call.drops entry := by
  induction calls generalizing codes with
  | nil =>
    show dictGet? codes code = _
    cases dictGet? codes code <;> rfl
  | cons call calls ih =>
    rw [List.forall_mem_cons] at hother
    have hstep : codes.afterCalls (call :: calls) =
        PKCECodeStore.afterCalls (codes.call call).2 calls := rfl
    rw [hstep, ih (nodup_keys_call hdict call) hother.2, dictGet?_call hdict hother.1,
      Option.filter_filter]
    congr 1

omit [Add T] [OfNat T 300] in
/-- What consuming with the redirect and the verifier of the entry checks: that the entry is
there, and in time. -/
theorem consumeCode_accepts_iff {codes : PKCECodeStore T} {code redirectUri codeVerifier : Str}
    {t : T} (hw : isWellFormedVerifier codeVerifier = true)
    (hentry : ∀ entry, dictGet? codes code = some entry →
      entry.redirectUri = redirectUri ∧ entry.codeChallenge = derivedChallenge codeVerifier) :
    (codes.consumeCode code redirectUri codeVerifier t).1 = .ok true ↔
      ∃ entry, dictGet? codes code = some entry ∧ t ≤ entry.expires := by
  have hascii : encodeAscii (derivedChallenge codeVerifier) =
      some (asciiBytes (derivedChallenge codeVerifier)) := encodeAscii_b64urlEncode _
  rw [PKCECodeStore.consumeCode, if_pos hw]
  cases hget : dictGet? codes code with
  | none => simp [PKCECodeStore.pop, hget, PKCECodeStore.checkEntry]
  | some entry =>
    obtain ⟨hred, hchal⟩ := hentry entry hget
    simp [PKCECodeStore.pop, hget, PKCECodeStore.checkEntry, hred, hchal, hascii]

omit [Add T] [OfNat T 300] in
/-- The clock of a call made in between lies between the two ends. -/
theorem PkceCall.now_le_of_pairwise {t₀ t : T} {calls : List (PkceCall T)}
    (hclock : (t₀ :: calls.map PkceCall.now ++ [t]).Pairwise (· ≤ ·)) {call : PkceCall T}
    (hmem : call ∈ calls) : call.now ≤ t :=
  (List.pairwise_append.mp hclock).2.2 _
    (List.mem_cons_of_mem _ (List.mem_map_of_mem hmem)) _ (List.mem_singleton_self t)

omit [Add T] [OfNat T 300] in
/-- A call drops an entry exactly when it is an issue that reads the clock no earlier than the
entry's expiry. -/
theorem PkceCall.drops_iff {call : PkceCall T} {entry : PendingCode T} :
    call.drops entry = true ↔ call.IsIssue ∧ entry.expires ≤ call.now := by
  cases call with
  | issue redirectUri codeChallenge now draw =>
    simp [PkceCall.drops, PkceCall.IsIssue, PkceCall.now]
  | consume code redirectUri codeVerifier now => simp [PkceCall.drops, PkceCall.IsIssue]

/-- Whether a pending code, issued at `t₀`, is accepted at `t` does not depend on what other
clients did meanwhile, except that a code of another client issued at the very instant of its
expiry, which is when it is presented, takes it away. -/
theorem consumeCode_afterCalls_iff {codes : PKCECodeStore T}
    {code redirectUri codeVerifier : Str} {t₀ t : T} {calls : List (PkceCall T)}
    (hdict : (codes.map Prod.fst).Nodup)
    (hpending : dictGet? codes code =
      some ⟨redirectUri, derivedChallenge codeVerifier, t₀ + authCodeTtl⟩)
    (hw : isWellFormedVerifier codeVerifier = true)
    (hother : ∀ call ∈ calls, call.IsOther code)
    (hclock : (t₀ :: calls.map PkceCall.now ++ [t]).Pairwise (· ≤ ·)) :
    (((codes.afterCalls calls).consumeCode code redirectUri codeVerifier t).1 = .ok true ↔
      (codes.consumeCode code redirectUri codeVerifier t).1 = .ok true) ↔
    ¬(t = t₀ + authCodeTtl ∧ ∃ call ∈ calls, call.IsIssue ∧ call.now = t) := by
  set pending : PendingCode T := ⟨redirectUri, derivedChallenge codeVerifier, t₀ + authCodeTtl⟩
  have hafter : dictGet? (codes.afterCalls calls) code =
      (some pending).filter fun entry => calls.all fun call => !call.drops entry := by
    rw [dictGet?_afterCalls hdict hother, hpending]
  have honce : (codes.consumeCode code redirectUri codeVerifier t).1 = .ok true ↔
      t ≤ t₀ + authCodeTtl := by
    have hentry : ∀ entry, dictGet? codes code = some entry → entry = pending := by
      intro entry hget
      exact (Option.some.inj (hpending.symm.trans hget)).symm
    rw [consumeCode_accepts_iff hw fun entry hget => by rw [hentry entry hget]; exact ⟨rfl, rfl⟩,
      hpending]
    simp [pending]
  have hlater : ((codes.afterCalls calls).consumeCode code redirectUri codeVerifier t).1 =
      .ok true ↔ t ≤ t₀ + authCodeTtl ∧ ∀ call ∈ calls, call.drops pending = false := by
    have hentry : ∀ entry, dictGet? (codes.afterCalls calls) code = some entry →
        entry = pending := by
      intro entry hget
      rw [hafter, Option.filter_eq_some_iff] at hget
      exact (Option.some.inj hget.1).symm
    rw [consumeCode_accepts_iff hw fun entry hget => by rw [hentry entry hget]; exact ⟨rfl, rfl⟩,
      hafter]
    constructor
    · rintro ⟨entry, hget, htime⟩
      obtain ⟨hentry, hkept⟩ := Option.filter_eq_some_iff.mp hget
      cases hentry
      exact ⟨htime, by simpa using hkept⟩
    · rintro ⟨htime, hkept⟩
      exact ⟨pending, Option.filter_eq_some_iff.mpr ⟨rfl, by simpa using hkept⟩, htime⟩
  rw [hlater, honce]
  constructor
  · rintro hsame ⟨hexp, call, hmem, hissue, hnow⟩
    have hdrops : call.drops pending = true :=
      PkceCall.drops_iff.mpr ⟨hissue, (hnow.trans hexp).ge⟩
    have hkept := (hsame.mpr hexp.le).2 call hmem
    rw [hdrops] at hkept
    exact Bool.noConfusion hkept
  · intro hboundary
    refine ⟨And.left, fun htime => ⟨htime, fun call hmem => ?_⟩⟩
    rw [Bool.eq_false_iff]
    intro hdrops
    obtain ⟨hissue, hexp⟩ := PkceCall.drops_iff.mp hdrops
    -- the clock has reached the expiry at this call, and not passed it at `t`
    have hle := PkceCall.now_le_of_pairwise hclock hmem
    have ht : t = t₀ + authCodeTtl := le_antisymm htime (hexp.trans hle)
    exact hboundary ⟨ht, call, hmem, hissue, le_antisymm hle (ht.le.trans hexp)⟩

/-- A code is issued at 0 and kept through an issue and a consume of others. -/
theorem consumeCode_afterCalls_iff_inTime :
    let verifier := List.replicate 43 (ch 'v')
    let callback := str "https://client.example/cb"
    let codes := (PKCECodeStore.issueCode ([] : PKCECodeStore ℤ) callback
      (derivedChallenge verifier) 0 (str "code")).2
    let calls : List (PkceCall ℤ) :=
      [.issue callback (derivedChallenge verifier) 10 (str "other"),
        .consume (str "other") callback verifier 299]
    (((codes.afterCalls calls).consumeCode (str "code") callback verifier 300).1 = .ok true ↔
      (codes.consumeCode (str "code") callback verifier 300).1 = .ok true) ∧
    (codes.consumeCode (str "code") callback verifier 300).1 = .ok true := by
  intro verifier callback codes calls
  have hpending : dictGet? codes (str "code") =
      some ⟨callback, derivedChallenge verifier, 0 + authCodeTtl⟩ := rfl
  refine ⟨(consumeCode_afterCalls_iff (by decide +kernel) hpending
    (by decide +kernel) ?_ (by decide +kernel)).mpr ?_, by decide +kernel⟩
  · simp [calls, PkceCall.IsOther]
  · rintro ⟨-, call, hmem, hissue, hnow⟩
    simp [calls] at hmem
    rcases hmem with rfl | rfl
    · revert hnow; decide
    · exact hissue

/-- An issue of another client at the very instant at which the code is presented, 300 seconds
after it was issued. -/
theorem not_consumeCode_afterCalls_boundary :
    let verifier := List.replicate 43 (ch 'v')
    let callback := str "https://client.example/cb"
    let codes := (PKCECodeStore.issueCode ([] : PKCECodeStore ℤ) callback
      (derivedChallenge verifier) 0 (str "code")).2
    let calls : List (PkceCall ℤ) :=
      [.issue callback (derivedChallenge verifier) 300 (str "other")]
    (codes.consumeCode (str "code") callback verifier 300).1 = .ok true ∧
    ((codes.afterCalls calls).consumeCode (str "code") callback verifier 300).1 = .ok false := by
  decide +kernel

end

end EsphomeMcp.OAuth
