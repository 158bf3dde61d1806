import EsphomeMcp.OAuth.Cimd
import EsphomeMcp.Python.World

/-!
# The cache of client id metadata documents

Lookups share one cache. Only a list that `_parse_cimd` accepted is put there under its client id,
so in any interleaving of lookups what one of them reads was validated by another.
-/

namespace EsphomeMcp.OAuth

open Py Py.Prog

section

variable [Runtime] {T : Type}

/-! ## Validated lists -/

/-- The list is the one of a document that was accepted for the client id. -/
def Validated (clientId : Str) (uris : List Str) : Prop := ∃ raw, parseCimd raw clientId = some uris

/-- A validated list is not empty, and every redirect in it is accepted. -/
theorem Validated.spec {clientId : Str} {uris : List Str} (h : Validated clientId uris) :
    uris ≠ [] ∧ ∀ uri ∈ uris, isValidRedirectUri uri = true := by
  obtain ⟨raw, h⟩ := h
  rw [parseCimd] at h
  split at h
  · split_ifs at h
    split at h
    · split at h
      · split_ifs at h with hall
        obtain rfl := Option.some.inj h
        rw [Bool.and_eq_true, decide_eq_true_eq, List.all_eq_true] at hall
        exact hall
      · cases h
    · cases h
  · cases h

theorem validated_of_answered {clientId : Str} {request : CimdRequest} {tr : List (CimdEvent T)}
    {uris : List Str} (h : Answered clientId request tr (.ok (some uris))) :
    Validated clientId uris := by
  generalize hout : Except.ok (some uris) = out at h
  cases h with
  | status | error => cases hout
  | body hbody =>
    rename_i tr' body
    cases body with
    | error e => cases hout
    | ok raw =>
      cases raw with
      | none => cases hout
      | some raw => exact ⟨raw, (Except.ok.inj hout).symm⟩

/-- A list a lookup returns was validated, or stood in the cache. -/
theorem fetchCimdRedirects_returns [LinearOrder T] (clientId : Str) :
    Spec (fetchCimdRedirects (T := T) clientId) fun tr out => ∀ uris, out = .ok (some uris) →
      Validated clientId uris ∨
        ∃ expires, ⟨.cached clientId, .ok (some (expires, some uris))⟩ ∈ tr := by
  rintro tr out hrun uris rfl
  have hpinned := fetchCimdRedirects_pinned clientId _ _ hrun
  obtain hne | ⟨now, expires, rfl, -⟩ := hpinned.returned uris rfl
  · left
    obtain ⟨parsed, port, answers, addresses, tr₁, tr₂, r, -, -, -, -, -, -, -, hfirst, hout⟩ :=
      hpinned.firstAnswer hne
    obtain rfl : r = .ok (some uris) := by
      cases r with
      | ok result => exact hout.symm
      | error e => cases e <;> cases hout
    obtain ⟨failed, rest, exchanges, post, -, -, -, -, hrest⟩ := hfirst
    cases rest with
    | nil => cases hrest.2
    | cons address rest =>
      obtain ⟨exchange, hanswered, -⟩ := hrest
      exact validated_of_answered hanswered
  · exact .inr ⟨expires, by simp⟩

/-- The commands that put only validated lists into the cache. -/
def CachesValidated (c : CimdCmd T) : Prop :=
  ∀ clientId now uris, c = .cacheCimd clientId now (some uris) → Validated clientId uris

omit [Runtime] in
theorem issues_readCapped {P : CimdCmd T → Prop} (h : P .readChunk) (fuel : ℕ) (raw : Bytes) :
    Issues P (readCapped fuel raw) := by
  induction fuel generalizing raw with
  | zero => trivial
  | succ fuel ih =>
    refine Issues.bind (Issues.perform h) fun chunk => ?_
    split_ifs
    · trivial
    · trivial
    · exact ih _

theorem issues_lookupCimd (clientId : Str) (parsed : ParseResult) (now : T) :
    Issues CachesValidated (lookupCimd clientId parsed now) := by
  have hother {c : CimdCmd T} (hc : ∀ clientId now uris, c ≠ .cacheCimd clientId now (some uris)) :
      CachesValidated c := fun clientId now uris h => absurd h (hc clientId now uris)
  rw [lookupCimd]
  cases hport : parsed.port with
  | none => trivial
  | some port =>
    refine Issues.bind ?_ fun addresses => ?_
    · refine Issues.tryCatch (Issues.bind (Issues.perform (hother (by simp))) fun _ => trivial) ?_
      intro e
      split <;> trivial
    · induction addresses with
      | nil => exact ⟨hother (by simp), fun _ => trivial⟩
      | cons address addresses ih =>
        rw [tryAddresses]
        refine Issues.bind_of_returns (Q := fun r => ∀ uris, r.2 = some uris →
          Validated clientId uris) ?_ ?_ ?_
        · refine Issues.tryCatch (Issues.bind (Issues.ofExcept _) fun url => ?_) ?_
          · refine Issues.bind (Issues.perform (hother (by simp))) fun status => ?_
            split_ifs
            · trivial
            · refine Issues.bind (issues_readCapped (hother (by simp)) _ _) fun raw => ?_
              cases raw <;> trivial
          · intro e
            split <;> trivial
        · rintro tr ⟨reached, result⟩ hrun uris hresult
          obtain ⟨r, hr, hout⟩ | ⟨e, -, -, hout⟩ | ⟨e, -, -, hout⟩ :=
            fetchPinnedCimd_spec (pinnedUrl_eq hport address) _ _ hrun
          · obtain ⟨-, rfl⟩ := Prod.mk.inj (Except.ok.inj hout)
            subst hresult
            exact validated_of_answered hr
          · obtain ⟨-, rfl⟩ := Prod.mk.inj (Except.ok.inj hout)
            cases hresult
          · cases hout
        · rintro ⟨reached, result⟩ hvalid
          cases reached with
          | false => exact ih
          | true =>
            cases result with
            | none => trivial
            | some uris =>
              refine ⟨?_, fun _ => trivial⟩
              rintro clientId' now' uris' heq
              cases heq
              exact hvalid uris rfl

theorem issues_fetchCimdRedirects [LinearOrder T] (clientId : Str) :
    Issues CachesValidated (fetchCimdRedirects (T := T) clientId) := by
  have hother {c : CimdCmd T} (hc : ∀ clientId now uris, c ≠ .cacheCimd clientId now (some uris)) :
      CachesValidated c := fun clientId now uris h => absurd h (hc clientId now uris)
  have hlookup (parsed : ParseResult) (now : T) :
      Issues CachesValidated (lookupUnderDeadline clientId parsed now) := by
    refine Issues.tryCatch (Issues.bind (Issues.perform (hother (by simp))) fun _ => ?_) ?_
    · refine Issues.bind (Issues.attempt (issues_lookupCimd clientId parsed now)) fun result => ?_
      exact ⟨hother (by simp), fun _ => Issues.ofExcept result⟩
    · intro e
      split
      · exact ⟨hother (by simp), fun _ => trivial⟩
      · exact ⟨hother (by simp), fun _ => trivial⟩
      · trivial
  rw [fetchCimdRedirects]
  split_ifs
  · refine Issues.bind (Issues.ofExcept _) fun parsed => ?_
    cases parsed.hostname with
    | none => trivial
    | some hostname =>
      simp only
      split_ifs
      · trivial
      · trivial
      · refine Issues.bind (Issues.perform (hother (by simp))) fun now => ?_
        refine Issues.bind (Issues.perform (hother (by simp))) fun entry => ?_
        split
        · split_ifs
          · trivial
          · exact hlookup parsed now
        · exact hlookup parsed now
  · trivial

omit [Runtime] in
theorem mem_of_mem_evictOldest {e : Str × T × Option (List Str)} {cache : CimdCache T}
    (h : e ∈ evictOldest cache) : e ∈ cache := by
  induction cache with
  | nil => exact h
  | cons x cache ih =>
    rw [evictOldest] at h
    split_ifs at h
    · exact List.mem_cons_of_mem _ (ih h)
    · exact h

variable [LinearOrder T] [Add T] [OfNat T 300] [OfNat T 60]

omit [Runtime] in
/-- What the commands do to the cache. -/
def cimdHandle : Handler (cimdSignature T) OAuthError (CimdCache T)
  | cache, .cached clientId, answer, cache' =>
    answer = .ok (dictGet? cache clientId) ∧ cache' = cache
  | cache, .cacheCimd clientId now result, _, cache' =>
    cache' = cacheCimd cache clientId now result
  | cache, _, _, cache' => cache' = cache

/-- Every list in the cache was validated. -/
def CacheValid (cache : CimdCache T) : Prop :=
  ∀ e ∈ cache, ∀ uris, e.2.2 = some uris → Validated e.1 uris

/-- Caching a validated list keeps the cache valid. -/
theorem cacheValid_cacheCimd {cache : CimdCache T} (h : CacheValid cache) {clientId : Str} {now : T}
    {result : Option (List Str)} (hresult : ∀ uris, result = some uris → Validated clientId uris) :
    CacheValid (cacheCimd cache clientId now result) := by
  intro e he
  rcases mem_dictSet he with he | rfl
  · refine h e ?_
    have hmem := mem_of_mem_evictOldest he
    split_ifs at hmem
    · exact (List.mem_filter.mp (List.mem_filter.mp hmem).1).1
    · exact (List.mem_filter.mp hmem).1
  · exact hresult

/-- What a lookup reads from the cache was validated. -/
def ReadsValidated (ev : CimdEvent T) : Prop :=
  ∀ clientId expires uris, ev = ⟨.cached clientId, .ok (some (expires, some uris))⟩ →
    Validated clientId uris

/-- One command of a lookup, with a valid cache before it. -/
theorem cimdHandle_valid {cache cache' : CimdCache T} {c : CimdCmd T} {answer : Except OAuthError c.Ans}
    (h : CacheValid cache) (hc : CachesValidated c) (hh : cimdHandle cache c answer cache') :
    CacheValid cache' ∧ ReadsValidated ⟨c, answer⟩ := by
  cases c with
  | cached clientId =>
    obtain ⟨rfl, rfl⟩ := hh
    refine ⟨h, fun clientId' expires uris heq => ?_⟩
    simp only [Event.mk.injEq, CimdCmd.cached.injEq] at heq
    obtain ⟨rfl, hget⟩ := heq
    exact h _ (mem_of_dictGet? (Except.ok.inj (eq_of_heq hget))) uris rfl
  | cacheCimd clientId now result =>
    obtain rfl := hh
    refine ⟨cacheValid_cacheCimd h fun uris huris => hc clientId now uris (by rw [huris]), ?_⟩
    intro clientId' expires uris heq
    cases heq
  | monotonic | acquire | release | getaddrinfo | get | readChunk =>
    obtain rfl := hh
    exact ⟨h, fun clientId expires uris heq => by cases heq⟩

end

end EsphomeMcp.OAuth
