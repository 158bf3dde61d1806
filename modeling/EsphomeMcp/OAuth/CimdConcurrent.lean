import EsphomeMcp.OAuth.CimdHistory

/-!
# Lookups side by side

Any number of lookups over one cache and one clock that does not go backwards. A lookup reads the
clock and the cache without suspending in between; at every other command others may run.

A lookup writes back whatever came of it, also over an entry that was written while it was under
way. `Spares` says of a write that it does no harm to a list that is still good, and
`EvictsForCapacity` that it makes room by removing it. As long as every write spares the list and
none evicts it, a later lookup finds it.
-/

namespace EsphomeMcp.OAuth

open Py Py.Prog

/-! ## The world of the lookups -/

/-- The cache, the latest reading of the clock, and whether the running lookup is between this
reading and that of the cache. -/
structure CimdWorld (T : Type) where
  clock : T
  cache : CimdCache T
  reading : Bool

section

variable {T : Type} [LinearOrder T] [Add T] [OfNat T 300] [OfNat T 60]

/-- What the commands do. Time passes whenever a lookup is suspended. -/
def cimdClock : Handler (cimdSignature T) OAuthError (CimdWorld T)
  | w, .monotonic, answer, w' =>
    w.reading = false ∧ ∃ now, w.clock ≤ now ∧ answer = .ok now ∧ w' = ⟨now, w.cache, true⟩
  | w, .cached clientId, answer, w' =>
    w.reading = true ∧ answer = .ok (dictGet? w.cache clientId) ∧ w' = ⟨w.clock, w.cache, false⟩
  | w, .cacheCimd clientId now result, _, w' =>
    w.reading = false ∧ w' = ⟨w.clock, w.cache.call (.write ⟨clientId, now, result⟩), false⟩
  | w, _, _, w' => w.reading = false ∧ ∃ now, w.clock ≤ now ∧ w' = ⟨now, w.cache, false⟩

/-- The command does no harm to a list that is still good for the client id: it does not write a
negative outcome over it, nor one that expires earlier. -/
def Spares (clientId : Str) (w : CimdWorld T) (c : CimdCmd T) : Prop :=
  ∀ now result expires uris, c = .cacheCimd clientId now result →
    dictGet? w.cache clientId = some (expires, some uris) → w.clock < expires →
      result.isSome ∧ expires ≤ now + 300

/-- The command writes another client id and removes this one, the oldest of 64 unexpired. -/
def EvictsForCapacity (clientId : Str) (w : CimdWorld T) (c : CimdCmd T) : Prop :=
  ∃ other now result, c = .cacheCimd other now result ∧ other ≠ clientId ∧
    (w.cache.liveOthers ⟨other, now, result⟩).length = cimdCacheMax ∧
    w.cache.head?.map Prod.fst = some clientId

/-- `cimdClock` for the commands that spare the client id and do not evict it. -/
def sparingClock (clientId : Str) : Handler (cimdSignature T) OAuthError (CimdWorld T) :=
  fun w c answer w' => cimdClock w c answer w' ∧ Spares clientId w c ∧
    ¬EvictsForCapacity clientId w c

end

/-- A lookup under way. -/
abbrev LookupThread (T : Type) := Thread (cimdSignature T) OAuthError (Option (List Str)) Str

/-- Lookups taking turns. -/
abbrev LookupPool (T : Type) :=
  Pool (cimdSignature T) OAuthError (Option (List Str)) Str (CimdWorld T)

section

variable [Runtime] {T : Type}

/-! ## The shape of a lookup -/

/-- What a lookup does once it has read the clock and the cache. -/
def afterRead [LinearOrder T] (clientId : Str) (parsed : ParseResult) (now : T) :
    Option (T × Option (List Str)) → CimdProg T (Option (List Str))
  | some (expires, result) =>
    if now < expires then return result else lookupUnderDeadline clientId parsed now
  | none => lookupUnderDeadline clientId parsed now

/-- A lookup is decided by the client id, or starts by reading the clock and the cache. -/
theorem fetchCimdRedirects_cases [LinearOrder T] (clientId : Str) :
    (∃ out, fetchCimdRedirects (T := T) clientId = ofExcept out) ∨
    ∃ parsed, fetchCimdRedirects (T := T) clientId =
      Prog.bind (ask .monotonic) fun now =>
        Prog.bind (ask (.cached clientId)) (afterRead clientId parsed now) := by
  rw [fetchCimdRedirects]
  split_ifs
  · cases parseUrl clientId with
    | error e => exact .inl ⟨.error (.py e), rfl⟩
    | ok parsed =>
      cases hhost : parsed.hostname with
      | none => exact .inl ⟨.error .other, by simp [Except.mapError, hhost]⟩
      | some hostname =>
        by_cases hloop : isLoopbackHost hostname = true
        · exact .inl ⟨.ok none, by simp [Except.mapError, hhost, hloop]⟩
        · by_cases hip : (ipAddress hostname).isSome = true
          · exact .inl ⟨.ok none, by simp [Except.mapError, hhost, hip]⟩
          · refine .inr ⟨parsed, ?_⟩
            simp only [Except.mapError, ofExcept_ok, bind_eq, bind_ret, hhost, hloop, hip,
              Bool.false_eq_true, if_false]
            congr 1
            funext now
            congr 1
            funext entry
            cases entry <;> rfl
  · exact .inl ⟨.ok none, rfl⟩

/-- The commands of a lookup once it has read the cache. What it writes is under its own client
id and with its own start time. -/
def IsLater (clientId : Str) (now : T) (c : CimdCmd T) : Prop :=
  c ≠ .monotonic ∧ (∀ other, c ≠ .cached other) ∧
    ∀ other now' result, c = .cacheCimd other now' result → other = clientId ∧ now' = now

theorem issues_lookupUnderDeadline (clientId : Str) (parsed : ParseResult) (now : T) :
    Issues (IsLater clientId now) (lookupUnderDeadline clientId parsed now) := by
  have hwrite (result : Option (List Str)) :
      IsLater clientId now (.cacheCimd clientId now result) := by
    refine ⟨by simp, by simp, ?_⟩
    rintro _ _ _ ⟨⟩
    exact ⟨rfl, rfl⟩
  have hfetch (address : Str) :
      Issues (IsLater clientId now) (fetchPinnedCimd (T := T) clientId parsed address) := by
    refine Issues.tryCatch (Issues.bind (Issues.ofExcept _) fun url => ?_) ?_
    · refine Issues.bind (Issues.perform (by simp [IsLater])) fun status => ?_
      refine Issues.ite trivial ?_
      refine Issues.bind (issues_readCapped (by simp [IsLater]) _ _) fun raw => ?_
      cases raw <;> trivial
    · intro e
      split <;> trivial
  have htry (addresses : List Str) :
      Issues (IsLater clientId now) (tryAddresses clientId parsed now addresses) := by
    induction addresses with
    | nil => exact ⟨hwrite none, fun _ => trivial⟩
    | cons address addresses ih =>
      refine Issues.bind (hfetch address) fun reached => ?_
      obtain ⟨reached, result⟩ := reached
      cases reached with
      | false => exact ih
      | true =>
        cases result with
        | none => trivial
        | some uris => exact ⟨hwrite (some uris), fun _ => trivial⟩
  have hlookup : Issues (IsLater clientId now) (lookupCimd clientId parsed now) := by
    rw [lookupCimd]
    cases parsed.port with
    | none => trivial
    | some port =>
      refine Issues.bind (Issues.tryCatch (Issues.bind (Issues.perform (by simp [IsLater]))
        fun _ => trivial) ?_) htry
      intro e
      split <;> trivial
  refine Issues.tryCatch (Issues.bind (Issues.perform (by simp [IsLater])) fun _ => ?_) ?_
  · refine Issues.bind (Issues.attempt hlookup) fun result => ?_
    exact ⟨by simp [IsLater], fun _ => Issues.ofExcept result⟩
  · intro e
    split
    · exact ⟨hwrite none, fun _ => trivial⟩
    · exact ⟨hwrite none, fun _ => trivial⟩
    · trivial

variable [LinearOrder T]

theorem issues_afterRead (clientId : Str) (parsed : ParseResult) (now : T)
    (entry : Option (T × Option (List Str))) :
    Issues (IsLater clientId now) (afterRead clientId parsed now entry) := by
  have hlookup := issues_lookupUnderDeadline clientId parsed now
  cases entry with
  | none => exact hlookup
  | some entry => exact Issues.ite trivial hlookup

/-- The next command of a lookup: the clock, then the cache, then those of `IsLater`. -/
theorem next_of_follows {clientId : Str} {tr : List (CimdEvent T)} {c : CimdCmd T}
    {k : Except OAuthError c.Ans → CimdProg T (Option (List Str))}
    (h : Follows (fetchCimdRedirects clientId) tr (.call c k)) :
    (tr = [] ∧ c = .monotonic) ∨
    ∃ now tr', tr = ⟨.monotonic, .ok now⟩ :: tr' ∧
      ((tr' = [] ∧ c = .cached clientId) ∨ (tr' ≠ [] ∧ IsLater clientId now c)) := by
  rcases fetchCimdRedirects_cases (T := T) clientId with ⟨out, hout⟩ | ⟨parsed, hparsed⟩
  · rw [hout] at h
    obtain ⟨-, hend⟩ := h.of_ofExcept
    cases out <;> cases hend
  · rw [hparsed] at h
    rcases h.of_bind_perform with ⟨rfl, hnext⟩ | ⟨r, tr', rfl, hclock⟩
    · cases hnext
      exact .inl ⟨rfl, rfl⟩
    · cases r with
      | error e =>
        obtain ⟨-, hend⟩ := Follows.of_ofExcept (x := .error e) hclock
        cases hend
      | ok now =>
        refine .inr ⟨now, tr', rfl, ?_⟩
        rcases Follows.of_bind_perform hclock with ⟨rfl, hnext⟩ | ⟨r, tr'', rfl, hcache⟩
        · cases hnext
          exact .inl ⟨rfl, rfl⟩
        · cases r with
          | error e =>
            obtain ⟨-, hend⟩ := Follows.of_ofExcept (x := .error e) hcache
            cases hend
          | ok entry =>
            exact .inr ⟨List.cons_ne_nil _ _,
              (Follows.issues hcache (issues_afterRead clientId parsed now entry)).1⟩

/-- A lookup that has read the clock reads the cache next. -/
theorem reads_of_follows {clientId : Str} {tr : List (CimdEvent T)} {now : T}
    {q : CimdProg T (Option (List Str))}
    (h : Follows (fetchCimdRedirects clientId) (⟨.monotonic, .ok now⟩ :: tr) q) :
    (tr = [] ∧ ∃ k, q = .call (.cached clientId) k) ∨
      ∃ r tr', tr = ⟨.cached clientId, r⟩ :: tr' := by
  rcases fetchCimdRedirects_cases (T := T) clientId with ⟨out, hout⟩ | ⟨parsed, hparsed⟩
  · rw [hout] at h
    cases h.of_ofExcept.1
  · rw [hparsed] at h
    cases h with
    | call _ h =>
      have hcache : Follows (Prog.bind (ask (.cached clientId)) (afterRead clientId parsed now)) tr q :=
        h
      rcases hcache.of_bind_perform with ⟨rfl, rfl⟩ | ⟨r, tr', rfl, -⟩
      · exact .inl ⟨rfl, _, rfl⟩
      · exact .inr ⟨r, tr', rfl⟩

/-- A lookup that read an entry still good returns it. -/
theorem served_of_follows {clientId : Str} {tr : List (CimdEvent T)} {now expires : T}
    {uris : List Str} {q : CimdProg T (Option (List Str))}
    (h : Follows (fetchCimdRedirects clientId)
      (⟨.monotonic, .ok now⟩ :: ⟨.cached clientId, .ok (some (expires, some uris))⟩ :: tr) q)
    (hlt : now < expires) : q = .ret (some uris) := by
  rcases fetchCimdRedirects_cases (T := T) clientId with ⟨out, hout⟩ | ⟨parsed, hparsed⟩
  · rw [hout] at h
    cases h.of_ofExcept.1
  · rw [hparsed] at h
    cases h with
    | call _ h =>
      cases h with
      | call _ h =>
        have hread : afterRead clientId parsed now (some (expires, some uris)) = .ret (some uris) :=
          if_pos hlt
        have hend : Follows (afterRead clientId parsed now (some (expires, some uris))) tr q := h
        rw [hread] at hend
        cases hend
        rfl

/-! ## Reachable pools -/

variable [Add T] [OfNat T 300] [OfNat T 60]

omit [Runtime] in
/-- The clock does not go backwards. -/
theorem clock_le_of_cimdClock {w w' : CimdWorld T} {c : CimdCmd T} {r : Except OAuthError c.Ans}
    (h : cimdClock w c r w') : w.clock ≤ w'.clock := by
  cases c with
  | monotonic =>
    obtain ⟨-, now, hle, -, rfl⟩ := h
    exact hle
  | cached clientId =>
    obtain ⟨-, -, rfl⟩ := h
    exact le_rfl
  | cacheCimd clientId now result =>
    obtain ⟨-, rfl⟩ := h
    exact le_rfl
  | acquire | release | getaddrinfo | get | readChunk =>
    obtain ⟨-, now, hle, rfl⟩ := h
    exact hle

omit [Runtime] in
/-- Only writes change the cache. -/
theorem cache_of_cimdClock {w w' : CimdWorld T} {c : CimdCmd T} {r : Except OAuthError c.Ans}
    (h : cimdClock w c r w') :
    (∃ clientId now result, c = .cacheCimd clientId now result ∧
      w'.cache = w.cache.call (.write ⟨clientId, now, result⟩)) ∨ w'.cache = w.cache := by
  cases c with
  | monotonic =>
    obtain ⟨-, now, -, -, rfl⟩ := h
    exact .inr rfl
  | cached clientId =>
    obtain ⟨-, -, rfl⟩ := h
    exact .inr rfl
  | cacheCimd clientId now result =>
    obtain ⟨-, rfl⟩ := h
    exact .inl ⟨clientId, now, result, rfl, rfl⟩
  | acquire | release | getaddrinfo | get | readChunk =>
    obtain ⟨-, now, -, rfl⟩ := h
    exact .inr rfl

/-- Lookup `j` has read the clock and not yet the cache. -/
def LookupPool.Between (σ : LookupPool T) (j : ℕ) (now : T) : Prop :=
  ∃ t, σ.threads[j]? = some t ∧ t.past = [⟨.monotonic, .ok now⟩]

theorem reachable_history {t₀ : T} {σ : LookupPool T}
    (h : Pool.Reachable fetchCimdRedirects cimdClock ⟨t₀, [], false⟩ σ) :
    ∃ calls, σ.world.cache = cimdRun calls := by
  refine Pool.Steps.preserves (P := fun w : CimdWorld T => ∃ calls, w.cache = cimdRun calls)
    ?_ h ⟨[], rfl⟩
  rintro w c r w' hh ⟨calls, hcalls⟩
  rcases cache_of_cimdClock hh with ⟨clientId, now, result, -, hcache⟩ | hcache
  · refine ⟨calls ++ [.write ⟨clientId, now, result⟩], ?_⟩
    rw [hcache, hcalls, cimdRun, cimdRun, List.foldl_append]
    rfl
  · exact ⟨calls, hcache.trans hcalls⟩

theorem reachable_valid {t₀ : T} {σ : LookupPool T}
    (h : Pool.Reachable fetchCimdRedirects cimdClock ⟨t₀, [], false⟩ σ) :
    CacheValid σ.world.cache ∧
      ∀ t ∈ σ.threads, ∀ now, (⟨.monotonic, .ok now⟩ : CimdEvent T) ∈ t.past →
        now ≤ σ.world.clock := by
  have hstep (w : CimdWorld T) (c : CimdCmd T) (r : Except OAuthError c.Ans) (w' : CimdWorld T)
      (hw : CacheValid w.cache) (hc : CachesValidated c) (hh : cimdClock w c r w') :
      CacheValid w'.cache ∧
        ∀ now, (⟨c, r⟩ : CimdEvent T) = ⟨.monotonic, .ok now⟩ → now ≤ w'.clock := by
    constructor
    · rcases cache_of_cimdClock hh with ⟨clientId, now, result, hwrite, hcache⟩ | hcache
      · rw [hcache]
        exact cacheValid_cacheCimd hw fun uris huris => hc clientId now uris (huris ▸ hwrite)
      · rw [hcache]
        exact hw
    · rintro now ⟨⟩
      obtain ⟨-, now', -, hanswer, rfl⟩ := hh
      exact (Except.ok.inj hanswer).le
  obtain ⟨hvalid, hpast⟩ := Pool.Reachable.events CachesValidated
    (fun w : CimdWorld T => CacheValid w.cache)
    (fun w (ev : CimdEvent T) => ∀ now, ev = ⟨.monotonic, .ok now⟩ → now ≤ w.clock)
    issues_fetchCimdRedirects (fun _ he => by cases he) hstep
    (fun w c r w' ev hh hok now hev => (hok now hev).trans (clock_le_of_cimdClock hh)) h
  exact ⟨hvalid, fun t ht now hmem => hpast t ht _ hmem now rfl⟩

omit [Runtime] [LinearOrder T] [Add T] [OfNat T 300] [OfNat T 60] in
theorem between_set {w w' : CimdWorld T}
    {ts : List (LookupThread T)} {i j : ℕ}
    {new : LookupThread T} {now : T}
    (h : LookupPool.Between ⟨w', ts.set i new⟩ j now) :
    (j = i ∧ new.past = [⟨.monotonic, .ok now⟩]) ∨
      (j ≠ i ∧ LookupPool.Between ⟨w, ts⟩ j now) := by
  obtain ⟨t, ht, hpast⟩ := h
  rw [List.getElem?_set] at ht
  split_ifs at ht with hij hlt
  · cases ht
    exact .inl ⟨hij.symm, hpast⟩
  · exact .inr ⟨Ne.symm hij, t, ht, hpast⟩

omit [Runtime] [LinearOrder T] [Add T] [OfNat T 300] [OfNat T 60] in
theorem between_spawn {w : CimdWorld T}
    {ts : List (LookupThread T)} {j : ℕ}
    {clientId : Str} {p : CimdProg T (Option (List Str))} {now : T}
    (h : LookupPool.Between ⟨w, ts ++ [⟨clientId, [], p⟩]⟩ j now) :
    LookupPool.Between ⟨w, ts⟩ j now := by
  obtain ⟨t, ht, hpast⟩ := h
  rw [List.getElem?_append] at ht
  split_ifs at ht
  · exact ⟨t, ht, hpast⟩
  · obtain rfl := List.mem_singleton.mp (List.mem_of_getElem? ht)
    cases hpast

/-- At most one lookup is between its two readings, and the clock is where it read it. -/
theorem reachable_atomic {t₀ : T} {σ : LookupPool T}
    (h : Pool.Reachable fetchCimdRedirects cimdClock ⟨t₀, [], false⟩ σ) :
    ∀ j now, σ.Between j now → σ.world.reading = true ∧ now = σ.world.clock ∧
      ∀ j' now', σ.Between j' now' → j' = j := by
  induction h with
  | refl =>
    rintro j now ⟨t, ht, -⟩
    cases ht
  | tail hr hs ih =>
    cases hs with
    | spawn clientId w ts =>
      intro j now hj
      obtain ⟨hreading, hnow, hunique⟩ := ih j now (between_spawn hj)
      exact ⟨hreading, hnow, fun j' now' hj' => hunique j' now' (between_spawn hj')⟩
    | @turn i _ _ ht =>
      cases ht with
      | @mk w w' ts clientId past c k r hi hh =>
        have hfollows := Pool.Reachable.follows hr _ (List.mem_of_getElem? hi)
        rcases next_of_follows hfollows with ⟨rfl, rfl⟩ | ⟨now₀, tr', rfl, hnext⟩
        · -- the clock is read: nobody was in between before, so only this lookup is now
          obtain ⟨hidle, now', -, rfl, rfl⟩ := hh
          have hnone (j : ℕ) (now : T) : ¬LookupPool.Between ⟨w, ts⟩ j now := by
            intro hj
            rw [(ih j now hj).1] at hidle
            cases hidle
          have honly (j : ℕ) (now : T) (hj : LookupPool.Between
              ⟨⟨now', w.cache, true⟩, ts.set i ⟨clientId, [] ++ [⟨.monotonic, .ok now'⟩], k (.ok now')⟩⟩
              j now) : j = i ∧ now = now' := by
            rcases between_set (w := w) hj with ⟨hji, hpast⟩ | ⟨-, hj⟩
            · cases hpast
              exact ⟨hji, rfl⟩
            · exact absurd hj (hnone j now)
          intro j now hj
          refine ⟨rfl, (honly j now hj).2, fun j' now'' hj' => ?_⟩
          rw [(honly j now hj).1, (honly j' now'' hj').1]
        · have hlonger {j : ℕ} {now : T} (hj : LookupPool.Between
              ⟨w', ts.set i ⟨clientId, ⟨.monotonic, .ok now₀⟩ :: tr' ++ [⟨c, r⟩], k r⟩⟩ j now) :
              j ≠ i ∧ LookupPool.Between ⟨w, ts⟩ j now := by
            rcases between_set (w := w) hj with ⟨-, hpast⟩ | hj
            · simp at hpast
            · exact hj
          intro j now hj
          obtain ⟨hne, hj⟩ := hlonger hj
          obtain ⟨hreading, -, hunique⟩ := ih j now hj
          rcases hnext with ⟨rfl, -⟩ | ⟨-, hclock, hcached, -⟩
          · exact absurd (hunique i now₀ ⟨_, hi, rfl⟩).symm hne
          · -- nothing else goes on between the two readings
            have hidle : w.reading = false := by
              cases c with
              | monotonic => exact absurd rfl hclock
              | cached other => exact absurd rfl (hcached other)
              | cacheCimd | acquire | release | getaddrinfo | get | readChunk => exact hh.1
            rw [hreading] at hidle
            cases hidle

/-! ## A list that is still good -/

/-- What spared writes keep of an entry that expires at `expires`: until then the client id has a
list at least as good, and what lookups of it that started after `σ₁` have read is still good. -/
structure Usable (σ₁ : LookupPool T) (clientId : Str) (expires : T) (σ : LookupPool T) : Prop where
  entry : expires ≤ σ.world.clock ∨
    ∃ later uris, expires ≤ later ∧ dictGet? σ.world.cache clientId = some (later, some uris)
  served : ∀ (i : ℕ) (t : LookupThread T), σ.threads[i]? = some t → t.job = clientId →
    (∀ t₁ : LookupThread T, σ₁.threads[i]? = some t₁ → t₁.past = []) →
      ∀ now r tr, t.past = ⟨.monotonic, .ok now⟩ :: ⟨.cached clientId, r⟩ :: tr → now < expires →
        ∃ later uris, r = .ok (some (later, some uris)) ∧ now < later ∧ Validated clientId uris

/-- One command that spares the entry. -/
theorem Usable.entry_step {t₀ : T} {σ : LookupPool T} {clientId : Str} {expires : T}
    (hreach : Pool.Reachable fetchCimdRedirects cimdClock ⟨t₀, [], false⟩ σ)
    (hentry : expires ≤ σ.world.clock ∨ ∃ later uris, expires ≤ later ∧
      dictGet? σ.world.cache clientId = some (later, some uris))
    {t : LookupThread T} (ht : t ∈ σ.threads)
    {c : CimdCmd T} {k : Except OAuthError c.Ans → CimdProg T (Option (List Str))}
    (hrest : t.rest = .call c k) {r : Except OAuthError c.Ans} {w' : CimdWorld T}
    (hh : sparingClock clientId σ.world c r w') :
    expires ≤ w'.clock ∨ ∃ later uris, expires ≤ later ∧
      dictGet? w'.cache clientId = some (later, some uris) := by
  obtain ⟨hclock, hspares, hroom⟩ := hh
  rcases hentry with hexpired | ⟨later, uris, hle, hget⟩
  · exact .inl (hexpired.trans (clock_le_of_cimdClock hclock))
  rcases le_or_gt expires σ.world.clock with hexpired | hlive
  · exact .inl (hexpired.trans (clock_le_of_cimdClock hclock))
  right
  rcases cache_of_cimdClock hclock with ⟨other, now, result, rfl, hcache⟩ | hcache
  · rw [hcache]
    by_cases hother : clientId = other
    · -- the write is under this client id, with a list that lasts as long
      subst hother
      obtain ⟨hsome, hlater⟩ := hspares now result later uris rfl hget (hlive.trans_le hle)
      obtain ⟨uris', rfl⟩ := Option.isSome_iff_exists.mp hsome
      exact ⟨now + 300, uris', hle.trans hlater, dictGet?_call_write _ ⟨clientId, now, some uris'⟩⟩
    · -- the write is under another client id, and started before now
      have hnow : now ≤ σ.world.clock := by
        have hfollows := hreach.follows t ht
        rw [hrest] at hfollows
        rcases next_of_follows hfollows with ⟨-, hcmd⟩ | ⟨now₀, tr', hpast, hnext⟩
        · cases hcmd
        · rcases hnext with ⟨-, hcmd⟩ | ⟨-, -, -, hwrite⟩
          · cases hcmd
          · rw [(hwrite other now result rfl).2]
            exact (reachable_valid hreach).2 t ht now₀ (hpast ▸ List.mem_cons_self)
      obtain ⟨calls, hcalls⟩ := reachable_history hreach
      refine ⟨later, uris, hle, ?_⟩
      have hinv := cimdRun_inv calls
      rw [← hcalls] at hinv
      refine hinv.dictGet?_call_write hget hother (hnow.trans_lt (hlive.trans_le hle)) ?_
      exact fun hfull => hroom ⟨other, now, result, rfl, Ne.symm hother, hfull⟩
  · rw [hcache]
    exact ⟨later, uris, hle, hget⟩

/-- Sparing the entry for any number of steps keeps it usable. -/
theorem usable_of_sparing {t₀ : T} {σ₁ σ₂ : LookupPool T}
    (hreach : Pool.Reachable fetchCimdRedirects cimdClock ⟨t₀, [], false⟩ σ₁) {clientId : Str}
    {expires : T} {uris : List Str}
    (hcached : dictGet? σ₁.world.cache clientId = some (expires, some uris))
    (hrun : Pool.Steps fetchCimdRedirects (sparingClock clientId) σ₁ σ₂) :
    Usable σ₁ clientId expires σ₂ := by
  induction hrun with
  | refl =>
    refine ⟨.inr ⟨expires, uris, le_rfl, hcached⟩, ?_⟩
    intro i t ht _ hlater now r tr hpast
    rw [hlater t ht] at hpast
    cases hpast
  | tail hsteps hs ih =>
    have hmid := hreach.trans (Pool.Steps.mono (fun _ _ _ _ hh => hh.1) hsteps)
    cases hs with
    | spawn j w ts =>
      refine ⟨ih.entry, ?_⟩
      intro i t ht hjob hlater now r tr hpast
      rw [List.getElem?_append] at ht
      split_ifs at ht
      · exact ih.served i t ht hjob hlater now r tr hpast
      · obtain rfl := List.mem_singleton.mp (List.mem_of_getElem? ht)
        cases hpast
    | @turn i _ _ ht =>
      cases ht with
      | @mk w w' ts clientId' past c k r hi hh =>
        have hmem : (⟨clientId', past, .call c k⟩ : LookupThread T) ∈ ts := List.mem_of_getElem? hi
        refine ⟨Usable.entry_step hmid ih.entry hmem rfl hh, ?_⟩
        intro j t ht hjob hlater now r' tr hpast
        rw [List.getElem?_set] at ht
        split_ifs at ht with hij hlt
        · cases ht
          subst hij
          obtain rfl : clientId' = clientId := hjob
          have hfollows : Follows (fetchCimdRedirects clientId') past (.call c k) :=
            Pool.Reachable.follows hmid ⟨clientId', past, .call c k⟩ hmem
          rcases next_of_follows hfollows with ⟨rfl, -⟩ | ⟨now₀, tr', rfl, hnext⟩
          · cases hpast
          rcases hnext with ⟨rfl, rfl⟩ | ⟨hread, -⟩
          · -- the cache is read now, and the clock has been where it is since it was read
            cases hpast
            intro hlt
            obtain ⟨-, hclock, -⟩ := reachable_atomic hmid i now ⟨_, hi, rfl⟩
            obtain ⟨-, hanswer, -⟩ := hh.1
            rcases ih.entry with hexpired | ⟨later, uris', hle, hget⟩
            · exact absurd (hclock ▸ hexpired) (not_le.mpr hlt)
            · refine ⟨later, uris', hanswer.trans (congrArg _ hget), hlt.trans_le hle, ?_⟩
              exact (reachable_valid hmid).1 _ (mem_of_dictGet? hget) uris' rfl
          · obtain ⟨ev, tr'', rfl⟩ := List.exists_cons_of_ne_nil hread
            cases hpast
            exact ih.served i _ hi rfl hlater now r' tr'' rfl
        · exact ih.served j t ht hjob hlater now r' tr hpast

/-- As long as every write spares the list cached for a client id and none evicts it, a lookup of
that client id which starts before the list expires gets a validated list from the cache. -/
theorem lookup_served {t₀ : T} {σ₁ σ₂ : LookupPool T}
    (hreach : Pool.Reachable fetchCimdRedirects cimdClock ⟨t₀, [], false⟩ σ₁) {clientId : Str}
    {expires : T} {uris : List Str}
    (hcached : dictGet? σ₁.world.cache clientId = some (expires, some uris))
    (hrun : Pool.Steps fetchCimdRedirects (sparingClock clientId) σ₁ σ₂) {i : ℕ}
    {t : LookupThread T} (ht : σ₂.threads[i]? = some t) (hjob : t.job = clientId)
    (hlater : ∀ t₁ : LookupThread T, σ₁.threads[i]? = some t₁ → t₁.past = [])
    {now : T} {tr : List (CimdEvent T)} (hpast : t.past = ⟨.monotonic, .ok now⟩ :: tr)
    (hnow : now < expires) :
    (tr = [] ∧ ∃ k, t.rest = .call (.cached clientId) k) ∨
      ∃ uris', t.rest = .ret (some uris') ∧ Validated clientId uris' := by
  have hmid := hreach.trans (Pool.Steps.mono (fun _ _ _ _ hh => hh.1) hrun)
  have hfollows : Follows (fetchCimdRedirects clientId) (⟨.monotonic, .ok now⟩ :: tr) t.rest := by
    rw [← hjob, ← hpast]
    exact Pool.Reachable.follows hmid t (List.mem_of_getElem? ht)
  rcases reads_of_follows hfollows with hbefore | ⟨r, tr', rfl⟩
  · exact .inl hbefore
  · obtain ⟨later, uris', rfl, hlt, hvalid⟩ :=
      (usable_of_sparing hreach hcached hrun).served i t ht hjob hlater now r tr' hpast hnow
    exact .inr ⟨uris', served_of_follows hfollows hlt, hvalid⟩

end

/-! ## Two lookups of one client -/

/-- A client with one redirect. -/
def listedClient : Str := str "https://client.example/doc"

/-- Its document. -/
def listedDocument : Bytes :=
  asciiBytes (str "\x7b\"client_id\":\"https://client.example/doc\",\"client_name\":\"C\"," ++
    str "\"redirect_uris\":[\"https://client.example/cb\"]\x7d")

/-- A world in which the host of the document answers once: as long as nothing is cached. -/
def answersOnce (w : CimdWorld ℕ) :
    (c : CimdCmd ℕ) → Option (Except OAuthError c.Ans × CimdWorld ℕ)
  | .monotonic => if w.reading then none else some (.ok w.clock, ⟨w.clock, w.cache, true⟩)
  | .cached clientId =>
    if w.reading then some (.ok (dictGet? w.cache clientId), ⟨w.clock, w.cache, false⟩) else none
  | .cacheCimd clientId now result =>
    if w.reading then none
    else some (.ok (), ⟨w.clock, w.cache.call (.write ⟨clientId, now, result⟩), false⟩)
  | .acquire | .release => if w.reading then none else some (.ok (), w)
  | .getaddrinfo _ _ => if w.reading then none else some (.ok [str "93.184.216.34"], w)
  | .get _ =>
    if w.reading then none
    else if w.cache = [] then some (.ok (200 : ℕ), w) else some (.error .client, w)
  | .readChunk =>
    -- the document in one chunk, and a second later its end
    if w.reading then none
    else if w.clock = 0 then some (.ok listedDocument, ⟨1, w.cache, false⟩) else some (.ok [], w)

theorem cimdClock_answersOnce (w : CimdWorld ℕ) (c : CimdCmd ℕ) (r : Except OAuthError c.Ans)
    (w' : CimdWorld ℕ) (h : answersOnce w c = some (r, w')) : cimdClock w c r w' := by
  obtain ⟨clock, cache, reading⟩ := w
  cases reading with
  | true =>
    cases c with
    | cached clientId =>
      cases h
      exact ⟨rfl, rfl, rfl⟩
    | monotonic | cacheCimd | acquire | release | getaddrinfo | get | readChunk => cases h
  | false =>
    cases c with
    | cached => cases h
    | monotonic =>
      cases h
      exact ⟨rfl, clock, le_rfl, rfl, rfl⟩
    | cacheCimd clientId now result =>
      cases h
      exact ⟨rfl, rfl⟩
    | acquire | release | getaddrinfo =>
      cases h
      exact ⟨rfl, clock, le_rfl, rfl⟩
    | get request =>
      simp only [answersOnce, Bool.false_eq_true, if_false] at h
      split_ifs at h
      · cases h
        exact ⟨rfl, clock, le_rfl, rfl⟩
      · cases h
        exact ⟨rfl, clock, le_rfl, rfl⟩
    | readChunk =>
      simp only [answersOnce, Bool.false_eq_true, if_false] at h
      split_ifs at h with hclock
      · cases h
        exact ⟨rfl, 1, by simp [hclock], rfl⟩
      · cases h
        exact ⟨rfl, clock, le_rfl, rfl⟩

/-- The reading of the clock a lookup started with. -/
def LookupThread.startedAt? {T : Type} (t : LookupThread T) : Option T :=
  match t.past with
  | ⟨.monotonic, .ok now⟩ :: _ => some now
  | _ => none

theorem LookupThread.exists_past {T : Type} {t : LookupThread T} {now : T}
    (h : t.startedAt? = some now) : ∃ tr, t.past = ⟨.monotonic, .ok now⟩ :: tr := by
  rw [LookupThread.startedAt?] at h
  split at h
  · rename_i hpast
    exact ⟨_, hpast.trans (by rw [Option.some.inj h])⟩
  · cases h

/-- The pool after a schedule in this world. -/
def answersOnceRun (σ : LookupPool ℕ) (schedule : List (Pool.Move Str)) : LookupPool ℕ :=
  letI := asciiRuntime
  schedule.foldl (Pool.tryMove fetchCimdRedirects answersOnce) σ

/-- Two lookups start on one miss, and the first caches the list. -/
def firstCaches : LookupPool ℕ :=
  answersOnceRun ⟨⟨0, [], false⟩, []⟩ <|
    .spawn listedClient :: .spawn listedClient :: List.replicate 2 (.turn 0) ++
    List.replicate 2 (.turn 1) ++ List.replicate 6 (.turn 0)

/-- The second finds the host gone, and a third lookup starts after it. -/
def secondFails : LookupPool ℕ :=
  answersOnceRun firstCaches <|
    List.replicate 4 (.turn 1) ++ .spawn listedClient :: List.replicate 2 (.turn 2)

theorem firstCaches_cached : dictGet? firstCaches.world.cache listedClient =
    some (300, some [str "https://client.example/cb"]) ∧ firstCaches.threads[2]?.isNone := by
  decide +kernel

/-- The third lookup, started before the list expires and with nothing evicted, gets nothing: the
slower failing lookup has replaced the list. -/
theorem not_lookup_served_slowFailure :
    letI := asciiRuntime
    Pool.Reachable fetchCimdRedirects cimdClock ⟨0, [], false⟩ firstCaches ∧
    dictGet? firstCaches.world.cache listedClient =
      some (300, some [str "https://client.example/cb"]) ∧
    Pool.Steps fetchCimdRedirects cimdClock firstCaches secondFails ∧
    firstCaches.threads[2]?.isNone ∧ secondFails.world.cache.length = 1 ∧
    ∃ t : LookupThread ℕ, secondFails.threads[2]? = some t ∧ t.job = listedClient ∧
      t.startedAt? = some 1 ∧ t.rest = .ret none := by
  let := asciiRuntime
  have hcached := firstCaches_cached
  have hlost : secondFails.world.cache.length = 1 ∧
      (secondFails.threads[2]?.map fun t : LookupThread ℕ => (t.job, t.rest.outcome?)) =
        some (listedClient, some (.ok none)) ∧
      (secondFails.threads[2]?.bind fun t : LookupThread ℕ => t.startedAt?) = some 1 := by
    decide +kernel
  obtain ⟨t, ht, heq⟩ := Option.map_eq_some_iff.mp hlost.2.1
  obtain ⟨hjob, hout⟩ := Prod.mk.inj heq
  refine ⟨Pool.steps_tryMoves cimdClock_answersOnce _ _, hcached.1,
    Pool.steps_tryMoves cimdClock_answersOnce _ _, hcached.2, hlost.1, t, ht, hjob, ?_,
    eq_ofExcept_of_outcome? hout⟩
  simpa [ht] using hlost.2.2

/-- The same world with the host there all the time. The document is read in one chunk, a second
after the first lookup has read it, and what is written spares the list. -/
def answersAgain (w : CimdWorld ℕ) :
    (c : CimdCmd ℕ) → Option (Except OAuthError c.Ans × CimdWorld ℕ)
  | .get _ => if w.reading then none else some (.ok (200 : ℕ), w)
  | .readChunk =>
    if w.reading then none
    else if w.clock = 1 then some (.ok listedDocument, ⟨2, w.cache, false⟩) else some (.ok [], w)
  | .cacheCimd clientId now result =>
    if clientId = listedClient ∧ result.isSome ∧
        (dictGet? w.cache listedClient).all fun entry => entry.1 ≤ now + 300 then
      answersOnce w (.cacheCimd clientId now result)
    else none
  | c => answersOnce w c

theorem sparingClock_answersAgain (w : CimdWorld ℕ) (c : CimdCmd ℕ) (r : Except OAuthError c.Ans)
    (w' : CimdWorld ℕ) (h : answersAgain w c = some (r, w')) :
    sparingClock listedClient w c r w' := by
  have hother (hcmd : ∀ clientId now result, c ≠ .cacheCimd clientId now result)
      (hclock : cimdClock w c r w') : sparingClock listedClient w c r w' :=
    ⟨hclock, fun now result _ _ hc => absurd hc (hcmd _ now result),
      fun ⟨_, now, result, hc, _⟩ => hcmd _ now result hc⟩
  obtain ⟨clock, cache, reading⟩ := w
  cases c with
  | monotonic | cached | acquire | release | getaddrinfo =>
    exact hother (by simp) (cimdClock_answersOnce _ _ r w' h)
  | get request =>
    simp only [answersAgain] at h
    split_ifs at h with hreading
    obtain rfl : reading = false := by simpa using hreading
    cases h
    exact hother (by simp) ⟨rfl, clock, le_rfl, rfl⟩
  | readChunk =>
    simp only [answersAgain] at h
    split_ifs at h with hreading hclock
    · obtain rfl : reading = false := by simpa using hreading
      cases h
      exact hother (by simp) ⟨rfl, 2, by simp [hclock], rfl⟩
    · obtain rfl : reading = false := by simpa using hreading
      cases h
      exact hother (by simp) ⟨rfl, clock, le_rfl, rfl⟩
  | cacheCimd clientId now result =>
    simp only [answersAgain] at h
    split_ifs at h with hspares
    obtain ⟨rfl, hsome, hlater⟩ := hspares
    refine ⟨cimdClock_answersOnce _ _ r w' h, ?_, ?_⟩
    · rintro _ _ expires uris ⟨⟩ hget -
      rw [show dictGet? cache listedClient = some (expires, some uris) from hget] at hlater
      exact ⟨hsome, by simpa using hlater⟩
    · -- it is the client id itself that is written
      rintro ⟨other, _, _, ⟨⟩, hne, -⟩
      exact hne rfl

/-- The second lookup caches the list as well, and then the third starts. -/
def thirdReads : LookupPool ℕ :=
  letI := asciiRuntime
  List.foldl (Pool.tryMove fetchCimdRedirects answersAgain) firstCaches <|
    List.replicate 6 (.turn 1) ++ .spawn listedClient :: List.replicate 2 (.turn 2)

/-- The lookup has written to the cache. -/
def LookupThread.hasWritten {T : Type} (t : LookupThread T) : Bool :=
  t.past.any fun ev => match ev.cmd with
    | .cacheCimd .. => true
    | _ => false

/-- When the write in between spares the list, the third lookup gets it. -/
theorem lookup_served_listed :
    letI := asciiRuntime
    (firstCaches.threads[1]?.any fun t : LookupThread ℕ => !t.hasWritten) ∧
    (thirdReads.threads[1]?.any fun t : LookupThread ℕ => t.hasWritten) ∧
    ∃ t : LookupThread ℕ, thirdReads.threads[2]? = some t ∧
      ∃ uris, t.rest = .ret (some uris) ∧ Validated listedClient uris := by
  let := asciiRuntime
  have hcached := firstCaches_cached
  have hwritten : (firstCaches.threads[1]?.any fun t : LookupThread ℕ => !t.hasWritten) ∧
      (thirdReads.threads[1]?.any fun t : LookupThread ℕ => t.hasWritten) := by
    decide +kernel
  have hthird : (thirdReads.threads[2]?.map fun t : LookupThread ℕ => (t.job, t.past.length)) =
      some (listedClient, 2) ∧
      (thirdReads.threads[2]?.bind fun t : LookupThread ℕ => t.startedAt?) = some 2 := by
    decide +kernel
  obtain ⟨t, ht, heq⟩ := Option.map_eq_some_iff.mp hthird.1
  obtain ⟨hjob, hlen⟩ := Prod.mk.inj heq
  obtain ⟨tr, hpast⟩ : ∃ tr, t.past = ⟨.monotonic, .ok 2⟩ :: tr := by
    refine LookupThread.exists_past ?_
    simpa [ht] using hthird.2
  have hreach : Pool.Reachable fetchCimdRedirects cimdClock ⟨0, [], false⟩ firstCaches :=
    Pool.steps_tryMoves cimdClock_answersOnce _ _
  have hrun : Pool.Steps fetchCimdRedirects (sparingClock listedClient) firstCaches thirdReads :=
    Pool.steps_tryMoves sparingClock_answersAgain _ _
  refine ⟨hwritten.1, hwritten.2, t, ht,
    (lookup_served hreach hcached.1 hrun ht hjob ?_ hpast (by decide)).resolve_left ?_⟩
  · intro t₁ ht₁
    rw [ht₁] at hcached
    cases hcached.2
  · rintro ⟨rfl, -⟩
    rw [hpast] at hlen
    cases hlen

end EsphomeMcp.OAuth
