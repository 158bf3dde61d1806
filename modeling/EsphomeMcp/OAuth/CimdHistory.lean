import EsphomeMcp.OAuth.CimdCache

/-!
# The cache of client id metadata documents over whole histories

Any calls of `_cache_cimd` and any reads, with start times in any order. What the cache is
compared with is `lastOutcomes`, the latest write of every client id, oldest first: the cache
keeps some of these, in their order.
-/

namespace EsphomeMcp.OAuth

open Py Py.Prog

/-! ## Histories -/

/-- The arguments of `_cache_cimd`. -/
structure CimdWrite (T : Type) where
  clientId : Str
  now : T
  result : Option (List Str)

/-- A call that concerns the cache. -/
inductive CimdCacheCall (T : Type) where
  | write (w : CimdWrite T)
  | read (clientId : Str)

section

variable {T : Type} [LinearOrder T] [Add T] [OfNat T 300] [OfNat T 60]

/-- What a write leaves under its client id. -/
def CimdWrite.entry (w : CimdWrite T) : Str × T × Option (List Str) :=
  match w.result with
  | some uris => (w.clientId, w.now + 300, some uris)
  | none => (w.clientId, w.now + 60, none)

/-- The cache after a call. -/
def CimdCache.call (cache : CimdCache T) : CimdCacheCall T → CimdCache T
  | .write w => cacheCimd cache w.clientId w.now w.result
  | .read _ => cache

/-- An empty cache and some calls. -/
def cimdRun (calls : List (CimdCacheCall T)) : CimdCache T := calls.foldl CimdCache.call []

/-- The writes among some calls. -/
def cimdWrites (calls : List (CimdCacheCall T)) : List (CimdWrite T) :=
  calls.filterMap fun
    | .write w => some w
    | .read _ => none

/-- The entries of the writes that no later one renewed, in the order of writing. -/
def lastOutcomes : List (CimdWrite T) → CimdCache T
  | [] => []
  | w :: ws =>
    if w.clientId ∈ ws.map CimdWrite.clientId then lastOutcomes ws else w.entry :: lastOutcomes ws

/-- The entries of other client ids that have not expired when a write started. -/
def CimdCache.liveOthers (cache : CimdCache T) (w : CimdWrite T) : CimdCache T :=
  cache.filter fun e => e.1 ≠ w.clientId ∧ w.now < e.2.1

/-! ## One write -/

omit [LinearOrder T] [Add T] [OfNat T 300] [OfNat T 60] in
/-- Only what exceeds the room for one more goes, from the front. -/
theorem evictOldest_eq_drop (cache : CimdCache T) :
    evictOldest cache = cache.drop (cache.length + 1 - cimdCacheMax) := by
  induction cache with
  | nil => rfl
  | cons e cache ih =>
    rw [evictOldest]
    split_ifs with hfull
    · have hlen : (e :: cache).length + 1 - cimdCacheMax =
          (cache.length + 1 - cimdCacheMax) + 1 := by
        rw [List.length_cons] at hfull ⊢
        omega
      rw [ih, hlen, List.drop_succ_cons]
    · rw [Nat.sub_eq_zero_of_le (by omega), List.drop_zero]

omit [LinearOrder T] [Add T] [OfNat T 300] [OfNat T 60] in
theorem evictOldest_of_lt {cache : CimdCache T} (h : cache.length < cimdCacheMax) :
    evictOldest cache = cache := by
  rw [evictOldest_eq_drop, Nat.sub_eq_zero_of_le h, List.drop_zero]

omit [LinearOrder T] [Add T] [OfNat T 300] [OfNat T 60] in
theorem length_evictOldest_lt (cache : CimdCache T) :
    (evictOldest cache).length < cimdCacheMax := by
  rw [evictOldest_eq_drop, List.length_drop, cimdCacheMax]
  omega

/-- What of a cache is still there when a write puts its entry behind it. -/
def CimdCache.kept (cache : CimdCache T) (w : CimdWrite T) : CimdCache T :=
  let others := cache.filter fun e => e.1 ≠ w.clientId
  evictOldest (if cimdCacheMax ≤ others.length then cache.liveOthers w else others)

omit [Add T] [OfNat T 300] [OfNat T 60] in
theorem kept_sublist (cache : CimdCache T) (w : CimdWrite T) :
    (cache.kept w).Sublist (cache.filter fun e => e.1 ≠ w.clientId) := by
  have hlive : (cache.liveOthers w).Sublist (cache.filter fun e => e.1 ≠ w.clientId) := by
    have hfilter : cache.liveOthers w =
        (cache.filter fun e => e.1 ≠ w.clientId).filter fun e => w.now < e.2.1 := by
      rw [List.filter_filter, CimdCache.liveOthers]
      congr 1
      funext e
      simp [and_comm]
    rw [hfilter]
    exact List.filter_sublist
  rw [CimdCache.kept, evictOldest_eq_drop]
  split_ifs
  · exact (List.drop_sublist _ _).trans hlive
  · exact List.drop_sublist _ _

/-- A write sets its entry in what it keeps. -/
theorem call_write_eq_dictSet (cache : CimdCache T) (w : CimdWrite T) :
    cache.call (.write w) = dictSet w.clientId w.entry.2 (cache.kept w) := by
  have hentry : w.entry.2 = (w.now +
      (if w.result.isSome then cimdCacheTtl else cimdNegativeTtl), w.result) := by
    rw [CimdWrite.entry]
    cases w.result <;> rfl
  have hkept : cache.kept w = evictOldest (if cimdCacheMax ≤ (cache.filter fun e =>
      e.1 ≠ w.clientId).length then (cache.filter fun e => e.1 ≠ w.clientId).filter fun e =>
        w.now < e.2.1 else cache.filter fun e => e.1 ≠ w.clientId) := by
    rw [CimdCache.kept, CimdCache.liveOthers, List.filter_filter]
    congr 3
    funext e
    simp [and_comm]
  rw [hentry, hkept]
  rfl

omit [LinearOrder T] in
theorem entry_clientId (w : CimdWrite T) : (w.clientId, w.entry.2) = w.entry := by
  rw [CimdWrite.entry]
  cases w.result <;> rfl

/-- A write moves its client id to the end. -/
theorem call_write (cache : CimdCache T) (w : CimdWrite T) :
    cache.call (.write w) = cache.kept w ++ [w.entry] := by
  have hfresh : w.clientId ∉ (cache.kept w).map Prod.fst := by
    rw [List.mem_map]
    rintro ⟨e, he, hid⟩
    simpa [hid] using (List.mem_filter.mp ((kept_sublist cache w).subset he)).2
  rw [call_write_eq_dictSet, dictSet_of_not_mem _ hfresh, entry_clientId]

/-- A write leaves its own entry. -/
theorem dictGet?_call_write (cache : CimdCache T) (w : CimdWrite T) :
    dictGet? (cache.call (.write w)) w.clientId = some w.entry.2 := by
  rw [call_write_eq_dictSet, dictGet?_dictSet, if_pos rfl]

omit [Add T] [OfNat T 300] [OfNat T 60] in
/-- The only other unexpired entry a write removes is the oldest of a cache full of them. -/
theorem oldest_of_not_mem_kept {cache : CimdCache T} (hcap : cache.length ≤ cimdCacheMax)
    {w : CimdWrite T} {e : Str × T × Option (List Str)} (hmem : e ∈ cache)
    (hother : e.1 ≠ w.clientId) (hlive : w.now < e.2.1) (hgone : e ∉ cache.kept w) :
    (cache.liveOthers w).length = cimdCacheMax ∧ cache.head? = some e := by
  have hothers : e ∈ cache.filter fun e => e.1 ≠ w.clientId :=
    List.mem_filter.mpr ⟨hmem, by simpa using hother⟩
  have hlives : e ∈ cache.liveOthers w :=
    List.mem_filter.mpr ⟨hmem, by simpa using ⟨hother, hlive⟩⟩
  rw [CimdCache.kept] at hgone
  -- with room for one more, everything unexpired stays
  have hfull : cimdCacheMax ≤ (cache.filter fun e => e.1 ≠ w.clientId).length := by
    by_contra hroom
    rw [if_neg hroom, evictOldest_of_lt (not_le.mp hroom)] at hgone
    exact hgone hothers
  rw [if_pos hfull] at hgone
  have hlivefull : cimdCacheMax ≤ (cache.liveOthers w).length := by
    by_contra hroom
    rw [evictOldest_of_lt (not_le.mp hroom)] at hgone
    exact hgone hlives
  have hsub : (cache.liveOthers w).Sublist cache := List.filter_sublist
  have hall : cache.liveOthers w = cache :=
    hsub.eq_of_length_le (hcap.trans hlivefull)
  rw [hall] at hgone hlivefull ⊢
  have hlen := le_antisymm hcap hlivefull
  refine ⟨hlen, ?_⟩
  rw [evictOldest_eq_drop, hlen, Nat.add_sub_cancel_left] at hgone
  cases cache with
  | nil => cases hmem
  | cons x cache =>
    rcases List.mem_cons.mp hmem with rfl | hmem
    · rfl
    · exact absurd hmem hgone

/-! ## Any history -/

omit [LinearOrder T] in
/-- A further write moves its client id to the end of the last outcomes. -/
theorem lastOutcomes_append (ws : List (CimdWrite T)) (w : CimdWrite T) :
    lastOutcomes (ws ++ [w]) = (lastOutcomes ws).filter (fun e => e.1 ≠ w.clientId) ++ [w.entry] := by
  have hfst (v : CimdWrite T) : v.entry.1 = v.clientId := by
    rw [← entry_clientId]
  induction ws with
  | nil => rfl
  | cons v ws ih =>
    rw [List.cons_append, lastOutcomes, lastOutcomes, ih]
    by_cases hlater : v.clientId ∈ ws.map CimdWrite.clientId
    · rw [if_pos (by simp [hlater]), if_pos hlater]
    · by_cases hsame : v.clientId = w.clientId
      · rw [if_pos (by simp [hsame]), if_neg hlater, List.filter_cons_of_neg]
        simp [hfst, hsame]
      · rw [if_neg (by simp [hlater, hsame]), if_neg hlater, List.filter_cons_of_pos]
        · rfl
        · simp [hfst, hsame]

/-- What holds of the cache after any history. -/
structure CimdCache.Inv (cache : CimdCache T) (ws : List (CimdWrite T)) : Prop where
  cap : cache.length ≤ cimdCacheMax
  order : cache.Sublist (lastOutcomes ws)

theorem CimdCache.Inv.write {cache : CimdCache T} {ws : List (CimdWrite T)} (h : cache.Inv ws)
    (w : CimdWrite T) : (cache.call (.write w)).Inv (ws ++ [w]) where
  cap := by
    rw [call_write, List.length_append]
    exact length_evictOldest_lt _
  order := by
    rw [call_write, lastOutcomes_append]
    exact ((kept_sublist cache w).trans (h.order.filter _)).append (List.Sublist.refl _)

theorem cimdRun_inv (calls : List (CimdCacheCall T)) :
    (cimdRun calls).Inv (cimdWrites calls) := by
  induction calls using List.reverseRecOn with
  | nil => exact ⟨Nat.zero_le _, List.Sublist.refl _⟩
  | append_singleton calls call ih =>
    have hrun : cimdRun (calls ++ [call]) = (cimdRun calls).call call := by
      rw [cimdRun, List.foldl_append]
      rfl
    rw [hrun, cimdWrites, List.filterMap_append, ← cimdWrites]
    cases call with
    | write w => exact ih.write w
    | read clientId =>
      rw [List.filterMap_cons_none rfl, List.filterMap_nil, List.append_nil]
      exact ih

omit [LinearOrder T] in
/-- The last outcomes are a dict. -/
theorem nodup_keys_lastOutcomes (ws : List (CimdWrite T)) :
    ((lastOutcomes ws).map Prod.fst).Nodup := by
  induction ws using List.reverseRecOn with
  | nil => exact List.nodup_nil
  | append_singleton ws w ih =>
    rw [lastOutcomes_append, List.map_append, List.nodup_append]
    refine ⟨ih.sublist (List.filter_sublist.map _), List.nodup_singleton _, ?_⟩
    intro key hkey key' hkey'
    obtain ⟨e, he, rfl⟩ := List.mem_map.mp hkey
    rw [← entry_clientId] at hkey'
    rw [List.mem_singleton.mp hkey']
    simpa using (List.mem_filter.mp he).2

omit [LinearOrder T] in
theorem CimdCache.Inv.nodup_keys {cache : CimdCache T} {ws : List (CimdWrite T)}
    (h : cache.Inv ws) : (cache.map Prod.fst).Nodup :=
  (nodup_keys_lastOutcomes ws).sublist (h.order.map _)

/-- A write of another client id leaves an unexpired entry where it is, unless it is the oldest of
64 unexpired. -/
theorem CimdCache.Inv.dictGet?_call_write {cache : CimdCache T} {ws : List (CimdWrite T)}
    (h : cache.Inv ws) {w : CimdWrite T} {clientId : Str} {v : T × Option (List Str)}
    (hget : dictGet? cache clientId = some v) (hother : clientId ≠ w.clientId)
    (hlive : w.now < v.1)
    (hroom : ¬((cache.liveOthers w).length = cimdCacheMax ∧
      cache.head?.map Prod.fst = some clientId)) :
    dictGet? (cache.call (.write w)) clientId = some v := by
  have hkept : (clientId, v) ∈ cache.kept w := by
    by_contra hgone
    obtain ⟨hfull, hhead⟩ :=
      oldest_of_not_mem_kept h.cap (mem_of_dictGet? hget) hother hlive hgone
    exact hroom ⟨hfull, by rw [hhead]; rfl⟩
  have hkeys : ((cache.kept w).map Prod.fst).Nodup :=
    h.nodup_keys.sublist (((kept_sublist cache w).trans List.filter_sublist).map _)
  rw [call_write_eq_dictSet, dictGet?_dictSet, if_neg hother, dictGet?_of_mem hkeys hkept]

/-! ## The history of the lookups -/

variable [Runtime]

omit [LinearOrder T] [Add T] [OfNat T 300] [OfNat T 60] in
/-- A validated list was read from a document with this very client id. -/
theorem Validated.document {clientId : Str} {uris : List Str} (h : Validated clientId uris) :
    ∃ raw doc, (decodeUtf8 raw).map (loadsWith true) = some (.ok (.obj doc)) ∧
      dictGet doc (str "client_id") = .str clientId ∧ parseCimd raw clientId = some uris := by
  obtain ⟨raw, hparse⟩ := h
  have haccept := hparse
  rw [parseCimd] at haccept
  split at haccept
  · rename_i doc hdoc
    split_ifs at haccept with haccepts
    rw [acceptsDocument] at haccepts
    simp only [Bool.and_eq_true, decide_eq_true_eq] at haccepts
    exact ⟨raw, doc, hdoc, haccepts.1.1.1.1, hparse⟩
  · cases haccept

/-- Lookups taking turns go through one history of the cache. -/
theorem reachable_cimdRun {σ : Pool (cimdSignature T) OAuthError (Option (List Str)) Str (CimdCache T)}
    (h : Pool.Reachable fetchCimdRedirects cimdHandle [] σ) : ∃ calls, σ.world = cimdRun calls := by
  refine Pool.Steps.preserves (P := fun cache => ∃ calls, cache = cimdRun calls) ?_ h ⟨[], rfl⟩
  rintro cache c r cache' hh ⟨calls, rfl⟩
  cases c with
  | cacheCimd clientId now result =>
    refine ⟨calls ++ [.write ⟨clientId, now, result⟩], ?_⟩
    rw [cimdRun, List.foldl_append]
    exact hh
  | cached clientId => exact ⟨calls, hh.2⟩
  | monotonic | acquire | release | getaddrinfo | get | readChunk => exact ⟨calls, hh⟩

/-- A list a lookup returns, among any others, was validated for its client id. -/
theorem reachable_validated
    {σ : Pool (cimdSignature T) OAuthError (Option (List Str)) Str (CimdCache T)}
    (h : Pool.Reachable fetchCimdRedirects cimdHandle [] σ) {t} (ht : t ∈ σ.threads)
    {uris : List Str} (hout : t.rest = .ret (some uris)) : Validated t.job uris := by
  obtain ⟨-, hreads⟩ := Pool.Reachable.events CachesValidated CacheValid
    (fun _ ev => ReadsValidated ev) issues_fetchCimdRedirects (fun _ he => by cases he)
    (fun w c r w' hI hc hh => cimdHandle_valid hI hc hh) (fun _ _ _ _ _ _ hev => hev) h
  have hrun := (h.follows t ht).runs (hout ▸ Runs.ret (some uris))
  rw [List.append_nil] at hrun
  rcases fetchCimdRedirects_returns t.job _ _ hrun uris rfl with hvalid | ⟨expires, hread⟩
  · exact hvalid
  · exact hreads t ht _ hread t.job expires uris rfl

end

end EsphomeMcp.OAuth
