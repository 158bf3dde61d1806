import EsphomeMcp.Addon.NativeMcp

/-!
# The native call protocol

What every run of `_native_device_builder` does on the wire, whatever the add-on answers. A run
fails without a tool call, or returns a listing, or makes one tool call behind an accepted
`initialize`, an accepted notification and a complete catalog (`Outcome`); the properties of the
protocol (`NativeRun`) are read off that.
-/

namespace EsphomeMcp.Addon

open Py Py.Prog

/-! ## Requests in a run -/

/-- The JSON-RPC method of a request. -/
def rpcMethod? : Exchange → Option Str
  | ⟨.request _ _ _ (.json body), _⟩ =>
    match body.get "method" with
    | .str method => some method
    | _ => none
  | _ => none

/-- The JSON-RPC methods a run requests, in order. -/
def rpcMethods (tr : List Exchange) : List Str := tr.filterMap rpcMethod?

/-- The request that `_native_mcp_request` sends. -/
abbrev rpcRequest (url : Str) (headers : Headers) (method : Str) (params : Json)
    (answer : Except Err HttpHead) : Exchange :=
  ⟨.request "POST" url headers (.json (.obj (rpcBody method params))), answer⟩

/-- The exchanges of a body that arrives in the given chunks. -/
def bodyExchange (chunks : List Bytes) : List Exchange :=
  (chunks ++ [[]]).map fun chunk => ⟨.readChunk, .ok chunk⟩

theorem rpcMethods_append (tr tr' : List Exchange) :
    rpcMethods (tr ++ tr') = rpcMethods tr ++ rpcMethods tr' := List.filterMap_append

theorem rpcMethods_cons_readChunk (r : Except Err Bytes) (tr : List Exchange) :
    rpcMethods (⟨.readChunk, r⟩ :: tr) = rpcMethods tr := rfl

theorem rpcMethods_cons_request (url : Str) (headers : Headers) (method : Str) (params : Json)
    (answer : Except Err HttpHead) (tr : List Exchange) :
    rpcMethods (rpcRequest url headers method params answer :: tr) = method :: rpcMethods tr := by
  have hmethod : (Json.obj (rpcBody method params)).get "method" = .str method := by
    simp [rpcBody, dictGet, dictGet?_cons]
  rw [rpcMethods, List.filterMap_cons, rpcMethod?, hmethod]
  rfl

theorem rpcMethods_bodyExchange (chunks : List Bytes) : rpcMethods (bodyExchange chunks) = [] := by
  induction chunks with
  | nil => rfl
  | cons chunk chunks ih => exact ih

/-- A command that is no JSON-RPC request. -/
def IsQuiet (c : Cmd) : Prop := ∀ r, rpcMethod? ⟨c, r⟩ = none

theorem rpcMethods_of_issues {α : Type} {p : Coro α} {tr : List Exchange} {out : Except Err α}
    (hp : Issues IsQuiet p) (h : Runs p tr out) : rpcMethods tr = [] := by
  refine List.filterMap_eq_nil_iff.mpr fun ev hev => ?_
  exact hp.of_runs h ev hev ev.answer

/-- Reading a body makes no request, and a body that was read is its chunks. -/
theorem runs_readNative {raw : Bytes} (hraw : raw.length ≤ maxNativeResponseSize)
    {tr : List Exchange} {out : Except Err (Except Dict Bytes)} (h : Runs (readNative raw) tr out) :
    rpcMethods tr = [] ∧ (∀ payload, out = .ok (.error payload) → isSuccess payload = false) ∧
      ∀ raw', out = .ok (.ok raw') → raw'.length ≤ maxNativeResponseSize ∧
        ∃ chunks, tr = bodyExchange chunks ∧ raw' = raw ++ chunks.flatten := by
  induction raw using readNative.induct generalizing tr with
  | case1 raw ih =>
    rw [readNative] at h
    obtain ⟨r, tr', rfl, hr⟩ := runs_call_iff.mp h
    rw [rpcMethods_cons_readChunk]
    cases r with
    | error e =>
      obtain ⟨rfl, rfl⟩ := runs_raise_iff.mp hr
      exact ⟨rfl, by simp, by simp⟩
    | ok chunk =>
      cases chunk with
      | nil =>
        obtain ⟨rfl, rfl⟩ := runs_ret_iff.mp hr
        refine ⟨rfl, by simp, fun raw' he => ?_⟩
        obtain rfl : raw = raw' := by simpa using he
        exact ⟨hraw, [], rfl, by simp⟩
      | cons b chunk =>
        simp only at hr
        split_ifs at hr with hsize
        · obtain ⟨rfl, rfl⟩ := runs_ret_iff.mp hr
          refine ⟨rfl, fun payload he => ?_, by simp⟩
          obtain rfl : _ = payload := by simpa using he
          exact isSuccess_error _ _ _
        · obtain ⟨hquiet, hfail, hok⟩ := ih b chunk hsize (Nat.le_of_not_lt hsize) hr
          refine ⟨hquiet, hfail, fun raw' he => ?_⟩
          obtain ⟨hlen, chunks, rfl, rfl⟩ := hok raw' he
          exact ⟨hlen, (b :: chunk) :: chunks, rfl, by simp⟩

/-! ## Replies -/

theorem dictGet_toolResponse {args : NativeArgs} {addon initialized result : Dict} {protocol : Str} :
    isSuccess (toolResponse args (args.metadata addon initialized protocol) result) =
      !(isErrorField result).truthy ∧
    dictGet (toolResponse args (args.metadata addon initialized protocol) result) "result" =
      .obj result := by
  constructor
  · simp [isSuccess, toolResponse, dictGet, dictGet?_cons]
  · simp [toolResponse, NativeArgs.metadata, dictGet, dictGet?_cons]

theorem dictGet_listResponse {args : NativeArgs} {addon initialized : Dict} {protocol : Str}
    (selected : List Json) (count : Json) :
    dictGet (success (args.metadata addon initialized protocol ++
      [("tools", .arr selected), ("count", count)])) "tools" = .arr selected := by
  simp [success, NativeArgs.metadata, dictGet, dictGet?_cons]

/-- A result that is well formed and no error says so by `false` or by saying nothing. -/
theorem isErrorField_eq_false {result : Dict} (hr : isToolResult result = true)
    (hf : (isErrorField result).truthy = false) : isErrorField result = .bool false := by
  unfold isToolResult at hr
  split at hr
  · have hb : (isErrorField result).isBool = true := by
      have := of_decide_eq_true hr
      exact this.1
    cases hfield : isErrorField result with
    | bool b =>
      rw [hfield] at hf
      rw [show b = false from hf]
    | _ => simp [hfield, Json.isBool] at hb
  · cases hr

/-- A tool of that name is what makes the selection not empty. -/
theorem exists_of_selectTools_ne_nil {tool : Str} {tools : List Json}
    (h : selectTools (some tool) tools ≠ []) : ∃ entry ∈ tools, entry.get "name" = .str tool := by
  obtain ⟨entry, hentry⟩ := List.exists_mem_of_ne_nil _ h
  obtain ⟨hmem, hname⟩ := List.mem_filter.mp hentry
  exact ⟨entry, hmem, by simpa using hname⟩

theorem runs_nativeHandler {e : Err} {tr : List Exchange} {out : Except Err Dict}
    (h : Runs (nativeHandler e) tr out) : rpcMethods tr = [] ∧ IsFailure out := by
  unfold nativeHandler at h
  split at h
  · rcases runs_bind_iff.mp h with ⟨b, tr₁, tr₂, h₁, h₂, rfl⟩ | ⟨e, h₁, rfl⟩
    · obtain rfl := runs_await_iff.mp h₁
      split_ifs at h₂
      · obtain ⟨rfl, rfl⟩ := runs_ret_iff.mp h₂
        exact ⟨rfl, isFailure_ok (isSuccess_error _ _ _)⟩
      · obtain ⟨rfl, rfl⟩ := runs_raise_iff.mp h₂
        exact ⟨rfl, isFailure_error _⟩
    · obtain rfl := runs_await_iff.mp h₁
      exact ⟨rfl, isFailure_error e⟩
  · obtain ⟨rfl, rfl⟩ := runs_ret_iff.mp h
    exact ⟨rfl, isFailure_ok (isSuccess_error _ _ _)⟩
  · obtain ⟨rfl, rfl⟩ := runs_ret_iff.mp h
    exact ⟨rfl, isFailure_ok (isSuccess_error _ _ _)⟩
  · obtain ⟨rfl, rfl⟩ := runs_raise_iff.mp h
    exact ⟨rfl, isFailure_error _⟩

section

variable [Runtime]

theorem isQuiet_of_isRead {c : Cmd} (h : IsRead c) : IsQuiet c := by
  intro r
  cases c with
  | request => cases h
  | _ => rfl

theorem isQuiet_of_isSupervisorCall {endpoint method : Str} {c : Cmd}
    (h : IsSupervisorCall endpoint method c) : IsQuiet c := by
  intro r
  cases c with
  | request => cases h
  | _ => rfl

/-! ## One request -/

/-- A body of at most 2 MiB is the result envelope for `body`. -/
def IsReply (body : Dict) (raw : Bytes) (result : Dict) : Prop :=
  raw.length ≤ maxNativeResponseSize ∧ ∃ payload, loadsBytes raw = .ok (.obj payload) ∧
    isEnvelope body payload = true ∧ dictHas payload "error" = false ∧
    dictGet payload "result" = .obj result

/-- The exchanges `tr` are a request with its accepted answer: a JSON response with status 200
that is the result envelope, or just status 202 for the notification. -/
def Accepted (url : Str) (headers : Headers) (method : Str) (params : Json) (tr : List Exchange)
    (result : Dict) : Prop :=
  ∃ head, (method = str "notifications/initialized" ∧ head.status = 202 ∧ result = [] ∧
      tr = [rpcRequest url headers method params (.ok head)]) ∨
    (head.status = 200 ∧ contains "application/json" (lower (head.header "Content-Type")) = true ∧
      ∃ chunks, tr = rpcRequest url headers method params (.ok head) :: bodyExchange chunks ∧
        IsReply (rpcBody method params) chunks.flatten result)

theorem Accepted.rpcMethods {url : Str} {headers : Headers} {method : Str} {params : Json}
    {tr : List Exchange} {result : Dict} (h : Accepted url headers method params tr result) :
    rpcMethods tr = [method] := by
  rcases h with ⟨head, ⟨-, -, -, rfl⟩ | ⟨-, -, chunks, rfl, -⟩⟩
  · rw [rpcMethods_cons_request]
    rfl
  · rw [rpcMethods_cons_request, rpcMethods_bodyExchange]

/-- What a complete body says, and that an error is never a success payload. -/
theorem nativeResult_spec {body : Dict} {raw : Bytes} {r : Except Dict Dict}
    (h : nativeResult body raw = .ok r) (hraw : raw.length ≤ maxNativeResponseSize) :
    (∀ payload, r = .error payload → isSuccess payload = false) ∧
      ∀ result, r = .ok result → IsReply body raw result := by
  unfold nativeResult at h
  split at h
  · cases h
    exact ⟨fun _ he => by cases he; exact isSuccess_error _ _ _, by simp⟩
  · cases h
  · rename_i payload hload
    split_ifs at h with henv herr
    · cases h
      exact ⟨fun _ he => by cases he; exact isSuccess_error _ _ _, by simp⟩
    · cases h
      exact ⟨fun _ he => by cases he; exact isSuccess_error _ _ _, by simp⟩
    · split at h
      · cases h
        refine ⟨by simp, fun result he => ?_⟩
        cases he
        exact ⟨hraw, payload, hload, by simpa using henv, by simpa using herr, ‹_›⟩
      · cases h
        exact ⟨fun _ he => by cases he; exact isSuccess_error _ _ _, by simp⟩
  · cases h
    exact ⟨fun _ he => by cases he; exact isSuccess_error _ _ _, by simp⟩

/-- What one request comes to: it is sent once, an error is no success payload, and a result is
accepted. -/
structure RequestRun (url : Str) (headers : Headers) (method : Str) (params : Json)
    (tr : List Exchange) (out : Except Err (Except Dict Dict)) : Prop where
  sent : ∃ answer rest, tr = rpcRequest url headers method params answer :: rest ∧
    rpcMethods rest = []
  failed : ∀ payload, out = .ok (.error payload) → isSuccess payload = false
  accepted : ∀ result, out = .ok (.ok result) → Accepted url headers method params tr result

/-- A request that was answered and then refused or broken off. -/
theorem RequestRun.refused {url : Str} {headers : Headers} {method : Str} {params : Json}
    {answer : Except Err HttpHead} {rest : List Exchange} {out : Except Err (Except Dict Dict)}
    (hrest : rpcMethods rest = [])
    (hout : (∃ e, out = .error e) ∨ ∃ payload, out = .ok (.error payload) ∧ isSuccess payload = false) :
    RequestRun url headers method params (rpcRequest url headers method params answer :: rest) out := by
  refine ⟨⟨answer, rest, rfl, hrest⟩, fun payload he => ?_, fun result he => ?_⟩
  · rcases hout with ⟨e, rfl⟩ | ⟨payload', rfl, hp⟩
    · cases he
    · cases he
      exact hp
  · rcases hout with ⟨e, rfl⟩ | ⟨payload', rfl, -⟩ <;> cases he

theorem runs_nativeMcpRequest {url : Str} {headers : Headers} {method : Str} {params : Json}
    {tr : List Exchange} {out : Except Err (Except Dict Dict)}
    (h : Runs (nativeMcpRequest url headers method params) tr out) :
    RequestRun url headers method params tr out := by
  unfold nativeMcpRequest at h
  rcases runs_bind_iff.mp h with ⟨head, tr₁, tr₂, h₁, h₂, rfl⟩ | ⟨e, h₁, rfl⟩
  · obtain rfl := runs_await_iff.mp h₁
    rw [List.singleton_append]
    -- an early exit with an error payload
    have hexit {payload : Dict} (hp : isSuccess payload = false)
        (hr : Runs (ret (.error payload) : Coro (Except Dict Dict)) tr₂ out) :
        RequestRun url headers method params
          (rpcRequest url headers method params (.ok head) :: tr₂) out := by
      obtain ⟨rfl, rfl⟩ := runs_ret_iff.mp hr
      exact .refused rfl (.inr ⟨payload, rfl, hp⟩)
    split_ifs at h₂ with hmissing hnote hstatus hjson
    · exact hexit (isSuccess_error _ _ _) h₂
    · obtain ⟨rfl, rfl⟩ := runs_ret_iff.mp h₂
      refine ⟨⟨.ok head, [], rfl, rfl⟩, by simp, fun result he => ?_⟩
      cases he
      exact ⟨head, .inl ⟨hnote.1, hnote.2, rfl, rfl⟩⟩
    · exact hexit (isSuccess_error _ _ _) h₂
    · exact hexit (isSuccess_error _ _ _) h₂
    · rcases runs_bind_iff.mp h₂ with ⟨r, tr₃, tr₄, h₃, h₄, rfl⟩ | ⟨e, h₃, rfl⟩
      · obtain ⟨hquiet, hfail, hread⟩ := runs_readNative (Nat.zero_le _) h₃
        cases r with
        | error payload =>
          obtain ⟨rfl, rfl⟩ := runs_ret_iff.mp h₄
          rw [List.append_nil]
          exact .refused hquiet (.inr ⟨payload, rfl, hfail payload rfl⟩)
        | ok raw =>
          obtain ⟨rfl, rfl⟩ := runs_ofExcept_iff.mp h₄
          rw [List.append_nil]
          obtain ⟨hlen, chunks, rfl, rfl⟩ := hread raw rfl
          rw [List.nil_append] at hlen ⊢
          cases hres : nativeResult (rpcBody method params) chunks.flatten with
          | error e => exact .refused hquiet (.inl ⟨e, rfl⟩)
          | ok r =>
            obtain ⟨hbad, hgood⟩ := nativeResult_spec hres hlen
            cases r with
            | error payload => exact .refused hquiet (.inr ⟨payload, rfl, hbad payload rfl⟩)
            | ok result =>
              refine ⟨⟨_, _, rfl, hquiet⟩, by simp, fun result' he => ?_⟩
              cases he
              exact ⟨head, .inr ⟨by simpa using hstatus, by simpa using hjson, chunks, rfl,
                hgood result rfl⟩⟩
      · exact .refused (runs_readNative (Nat.zero_le _) h₃).1 (.inl ⟨e, rfl⟩)
  · obtain rfl := runs_await_iff.mp h₁
    exact .refused rfl (.inl ⟨e, rfl⟩)

/-! ## The catalog -/

/-- One page of a catalog: where it starts, what came back and the exchanges it took. -/
structure Page where
  cursor : Option Str
  reply : Dict
  entries : List Json
  tr : List Exchange

/-- An accepted page of well-formed entries. -/
structure IsPage (url : Str) (headers : Headers) (p : Page) : Prop where
  accepted : Accepted url headers "tools/list" (listParams p.cursor) p.tr p.reply
  tools : dictGet p.reply "tools" = .arr p.entries
  entries : ∀ entry ∈ p.entries, isToolEntry entry = true

/-- Pages that follow one another from a cursor to a page without a next cursor. -/
inductive Listing (url : Str) (headers : Headers) : Option Str → List Page → Prop
  | last {p : Page} (hp : IsPage url headers p) (hn : dictGet p.reply "nextCursor" = .null) :
      Listing url headers p.cursor [p]
  | more {p : Page} {next : Str} {ps : List Page} (hp : IsPage url headers p)
      (hn : dictGet p.reply "nextCursor" = .str next) (hps : Listing url headers (some next) ps) :
      Listing url headers p.cursor (p :: ps)

/-- A complete catalog: at most 20 pages, from the start to the end, no cursor used twice. -/
structure IsCatalog (url : Str) (headers : Headers) (pages : List Page) : Prop where
  listing : Listing url headers none pages
  length_le : pages.length ≤ 20
  nodup : (pages.filterMap Page.cursor).Nodup

theorem Listing.rpcMethods {url : Str} {headers : Headers} {cursor : Option Str}
    {pages : List Page} (h : Listing url headers cursor pages) :
    ∀ method ∈ rpcMethods (pages.flatMap Page.tr), method = str "tools/list" := by
  induction h with
  | last hp hn =>
    rw [List.flatMap_singleton, hp.accepted.rpcMethods]
    simp
  | more hp hn hps ih =>
    rw [List.flatMap_cons, rpcMethods_append, hp.accepted.rpcMethods]
    intro method hm
    rcases List.mem_append.mp hm with hm | hm
    · exact List.mem_singleton.mp hm
    · exact ih method hm

theorem Listing.exists_head {url : Str} {headers : Headers} {cursor : Option Str}
    {pages : List Page} (h : Listing url headers cursor pages) :
    ∃ p ps, pages = p :: ps ∧ p.cursor = cursor := by
  cases h with
  | last => exact ⟨_, _, rfl, rfl⟩
  | more => exact ⟨_, _, rfl, rfl⟩

/-- What listing comes to, from `cursor` with `seen` cursors and some `tools` already there. -/
structure ListRun (url : Str) (headers : Headers) (fuel : ℕ) (cursor : Option Str)
    (seen : List Str) (tools : List Json) (tr : List Exchange)
    (out : Except Err (Except Dict (List Json))) : Prop where
  methods : ∀ method ∈ rpcMethods tr, method = str "tools/list"
  failed : ∀ payload, out = .ok (.error payload) → isSuccess payload = false
  listed : ∀ all, out = .ok (.ok all) → ∃ pages, Listing url headers cursor pages ∧
    pages.length ≤ fuel ∧ tr = pages.flatMap Page.tr ∧
    all = tools ++ pages.flatMap Page.entries ∧
    (pages.tail.filterMap Page.cursor).Nodup ∧ ∀ c ∈ pages.tail.filterMap Page.cursor, c ∉ seen

/-- A listing that ended without a catalog. -/
theorem ListRun.stopped {url : Str} {headers : Headers} {fuel : ℕ} {cursor : Option Str}
    {seen : List Str} {tools : List Json} {tr : List Exchange}
    {out : Except Err (Except Dict (List Json))}
    (hm : ∀ method ∈ rpcMethods tr, method = str "tools/list")
    (hout : (∃ e, out = .error e) ∨ ∃ payload, out = .ok (.error payload) ∧ isSuccess payload = false) :
    ListRun url headers fuel cursor seen tools tr out := by
  refine ⟨hm, fun payload he => ?_, fun all he => ?_⟩
  · rcases hout with ⟨e, rfl⟩ | ⟨payload', rfl, hp⟩
    · cases he
    · cases he
      exact hp
  · rcases hout with ⟨e, rfl⟩ | ⟨payload', rfl, -⟩ <;> cases he

/-- By induction on the pages still allowed; the cursors behind the first page are new and
different from each other. -/
theorem runs_listTools {url : Str} {headers : Headers} {fuel : ℕ} {cursor : Option Str}
    {seen : List Str} {size : ℕ} {tools : List Json} {tr : List Exchange}
    {out : Except Err (Except Dict (List Json))}
    (h : Runs (listTools url headers fuel cursor seen size tools) tr out) :
    ListRun url headers fuel cursor seen tools tr out := by
  induction fuel generalizing cursor seen size tools tr with
  | zero =>
    obtain ⟨rfl, rfl⟩ := runs_ret_iff.mp h
    exact .stopped (fun _ hm => by cases hm) (.inr ⟨_, rfl, isSuccess_error _ _ _⟩)
  | succ fuel ih =>
    unfold listTools at h
    rcases runs_bind_iff.mp h with ⟨r, tr₁, tr₂, h₁, h₂, rfl⟩ | ⟨e, h₁, rfl⟩
    · have hreq := runs_nativeMcpRequest h₁
      have hmethods : ∀ method ∈ rpcMethods tr₁, method = str "tools/list" := by
        obtain ⟨answer, rest, rfl, hrest⟩ := hreq.sent
        rw [rpcMethods_cons_request, hrest]
        simp
      -- an exit with an error payload right behind the page
      have hexit {payload : Dict} (hp : isSuccess payload = false)
          (hr : Runs (ret (.error payload) : Coro (Except Dict (List Json))) tr₂ out) :
          ListRun url headers (fuel + 1) cursor seen tools (tr₁ ++ tr₂) out := by
        obtain ⟨rfl, rfl⟩ := runs_ret_iff.mp hr
        rw [List.append_nil]
        exact .stopped hmethods (.inr ⟨payload, rfl, hp⟩)
      cases r with
      | error payload => exact hexit (hreq.failed payload rfl) h₂
      | ok page =>
        simp only at h₂
        cases htools : dictGet page "tools" with
        | arr entries =>
          rw [htools] at h₂
          simp only at h₂
          split_ifs at h₂ with hentries
          · exact hexit (isSuccess_error _ _ _) h₂
          · have hpage : IsPage url headers ⟨cursor, page, entries, tr₁⟩ :=
              ⟨hreq.accepted page rfl, htools, by simpa using hentries⟩
            rcases runs_bind_iff.mp h₂ with ⟨text, tr₃, tr₄, h₃, h₄, rfl⟩ | ⟨e, h₃, rfl⟩
            · obtain ⟨rfl, -⟩ := runs_ofExcept_iff.mp h₃
              rw [List.nil_append] at hexit ⊢
              split_ifs at h₄ with hsize
              · exact hexit (isSuccess_error _ _ _) h₄
              · split at h₄
                · -- the last page
                  rename_i hnext
                  obtain ⟨rfl, rfl⟩ := runs_ret_iff.mp h₄
                  rw [List.append_nil]
                  refine ⟨hmethods, by simp, fun all he => ?_⟩
                  cases he
                  exact ⟨[⟨cursor, page, entries, tr₁⟩], .last hpage hnext, by simp, by simp,
                    by simp, by simp, by simp⟩
                · rename_i c next hnext
                  split_ifs at h₄ with hseen
                  · exact hexit (isSuccess_error _ _ _) h₄
                  · have hrest := ih h₄
                    refine ⟨fun method hm => ?_, hrest.failed, fun all he => ?_⟩
                    · rw [rpcMethods_append] at hm
                      exact (List.mem_append.mp hm).elim (hmethods method) (hrest.methods method)
                    · obtain ⟨pages, hlist, hlen, rfl, rfl, hnodup, hnew⟩ := hrest.listed all he
                      -- the page list of the rest starts at the cursor this page gave
                      obtain ⟨p, ps, rfl, hp⟩ := hlist.exists_head
                      refine ⟨⟨cursor, page, entries, tr₁⟩ :: p :: ps, .more hpage hnext hlist,
                        by simpa using hlen, by simp, by simp, ?_, ?_⟩
                      · rw [List.tail_cons, List.filterMap_cons_some hp, List.nodup_cons]
                        exact ⟨fun hm => hnew _ hm (by simp), hnodup⟩
                      · rw [List.tail_cons, List.filterMap_cons_some hp]
                        intro c' hc'
                        rcases List.mem_cons.mp hc' with rfl | hc'
                        · exact hseen
                        · exact fun hm => hnew c' hc' (List.mem_append_left _ hm)
                · exact hexit (isSuccess_error _ _ _) h₄
            · obtain ⟨rfl, -⟩ := runs_ofExcept_iff.mp h₃
              rw [List.append_nil]
              exact .stopped hmethods (.inl ⟨e, rfl⟩)
        | _ =>
          rw [htools] at h₂
          exact hexit (isSuccess_error _ _ _) h₂
    · obtain ⟨answer, rest, rfl, hrest⟩ := (runs_nativeMcpRequest h₁).sent
      refine .stopped ?_ (.inl ⟨e, rfl⟩)
      rw [rpcMethods_cons_request, hrest]
      simp

theorem runs_listTools_catalog {url : Str} {headers : Headers} {tr : List Exchange}
    {tools : List Json} (h : Runs (listTools url headers 20 none [] 0 []) tr (.ok (.ok tools))) :
    ∃ pages, IsCatalog url headers pages ∧ tr = pages.flatMap Page.tr ∧
      tools = pages.flatMap Page.entries := by
  obtain ⟨pages, hlist, hlen, htr, htools, hnodup, -⟩ := (runs_listTools h).listed tools rfl
  refine ⟨pages, ⟨hlist, hlen, ?_⟩, htr, htools⟩
  obtain ⟨p, ps, rfl, hp⟩ := hlist.exists_head
  rw [List.filterMap_cons_none hp]
  exact hnodup

/-! ## Every run -/

/-- The exchanges `tr` are the preparation of a call: nothing but accepted steps up to a complete
catalog with the given tools. -/
def Prepared (url : Str) (headers : Headers) (tr : List Exchange) (tools : List Json) : Prop :=
  ∃ lead opening note pages first initialized protocol reply,
    tr = lead ++ opening ++ note ++ pages.flatMap Page.tr ∧ rpcMethods lead = [] ∧
    Accepted url first "initialize" initializeParams opening initialized ∧
    supportedProtocol initialized = some protocol ∧
    headers = dictSet "MCP-Protocol-Version" protocol first ∧
    Accepted url headers "notifications/initialized" (.obj []) note reply ∧
    IsCatalog url headers pages ∧ tools = pages.flatMap Page.entries

theorem Prepared.rpcMethods {url : Str} {headers : Headers} {tr : List Exchange}
    {tools : List Json} (h : Prepared url headers tr tools) : str "tools/call" ∉ rpcMethods tr := by
  obtain ⟨lead, opening, note, pages, first, initialized, protocol, reply, rfl, hlead, hopen, -, -,
    hnote, hcatalog, -⟩ := h
  rw [rpcMethods_append, rpcMethods_append, rpcMethods_append, hlead, hopen.rpcMethods,
    hnote.rpcMethods]
  intro hm
  simp only [List.nil_append, List.cons_append, List.mem_cons, str_inj] at hm
  rcases hm with hm | hm | hm
  · exact absurd hm (by decide)
  · exact absurd hm (by decide)
  · exact absurd (hcatalog.listing.rpcMethods _ hm) (by decide)

/-- The ways a run can end. -/
inductive Outcome (args : NativeArgs) : List Exchange → Except Err Dict → Prop
  | failed {tr : List Exchange} {out : Except Err Dict} (hcall : str "tools/call" ∉ rpcMethods tr)
      (hout : IsFailure out) : Outcome args tr out
  | listed {url : Str} {headers : Headers} {tr : List Exchange} {tools : List Json} {d : Dict}
      (hcall : args.call = false) (hprep : Prepared url headers tr tools)
      (hd : dictGet d "tools" = .arr (selectTools args.tool tools)) : Outcome args tr (.ok d)
  | called {url : Str} {headers : Headers} {lead rest : List Exchange} {tools : List Json}
      {answer : Except Err HttpHead} {out : Except Err Dict} (hcall : args.call = true)
      (hprep : Prepared url headers lead tools)
      (htool : args.tool.isSome = true → selectTools args.tool tools ≠ [])
      (hrest : rpcMethods rest = [])
      (hd : ∀ d, out = .ok d → isSuccess d = true → ∃ result,
        Accepted url headers "tools/call" args.callParams
          (rpcRequest url headers "tools/call" args.callParams answer :: rest) result ∧
        isErrorField result = .bool false ∧ dictGet d "result" = .obj result) :
      Outcome args
        (lead ++ rpcRequest url headers "tools/call" args.callParams answer :: rest) out

/-- An exception handler that makes no request and never succeeds keeps the outcome. -/
theorem Outcome.handled {args : NativeArgs} {tr tr' : List Exchange} {e : Err}
    {out : Except Err Dict} (h : Outcome args tr (.error e)) (hquiet : rpcMethods tr' = [])
    (hout : IsFailure out) : Outcome args (tr ++ tr') out := by
  cases h with
  | failed hcall _ =>
    refine .failed ?_ hout
    rw [rpcMethods_append, hquiet, List.append_nil]
    exact hcall
  | called hcall hprep htool hrest hd =>
    rw [List.append_assoc, List.cons_append]
    refine .called hcall hprep htool (by rw [rpcMethods_append, hrest, hquiet]; rfl) ?_
    intro d hd hs
    rw [hout d hd] at hs
    cases hs

theorem runs_useCatalog {url : Str} {headers : Headers} {args : NativeArgs}
    {addon initialized : Dict} {protocol : Str} {lead tr : List Exchange} {tools : List Json}
    {out : Except Err Dict} (hprep : Prepared url headers lead tools)
    (h : Runs (useCatalog url headers args (args.metadata addon initialized protocol) tools) tr out) :
    Outcome args (lead ++ tr) out := by
  unfold useCatalog at h
  simp only at h
  split_ifs at h with hmissing hcall
  · obtain ⟨rfl, rfl⟩ := runs_ret_iff.mp h
    rw [List.append_nil]
    exact .failed hprep.rpcMethods (isFailure_ok (isSuccess_error _ _ _))
  · obtain ⟨rfl, rfl⟩ := runs_ret_iff.mp h
    rw [List.append_nil]
    exact .listed (by simpa using hcall) hprep (dictGet_listResponse _ _)
  · have htool : args.tool.isSome = true → selectTools args.tool tools ≠ [] :=
      fun hs he => hmissing ⟨hs, he⟩
    have hcalled : args.call = true := by simpa using hcall
    unfold callTool at h
    rcases runs_bind_iff.mp h with ⟨r, tr₁, tr₂, h₁, h₂, rfl⟩ | ⟨e, h₁, rfl⟩
    · have hreq := runs_nativeMcpRequest h₁
      obtain ⟨answer, rest, rfl, hrest⟩ := hreq.sent
      have htr₂ : tr₂ = [] := by
        cases r with
        | error payload => exact (runs_ret_iff.mp h₂).1
        | ok result =>
          simp only at h₂
          split_ifs at h₂ <;> exact (runs_ret_iff.mp h₂).1
      subst htr₂
      rw [List.append_nil]
      refine .called hcalled hprep htool hrest fun d hd hs => ?_
      cases r with
      | error payload =>
        obtain ⟨-, rfl⟩ := runs_ret_iff.mp h₂
        cases hd
        rw [hreq.failed _ rfl] at hs
        cases hs
      | ok result =>
        simp only at h₂
        split_ifs at h₂ with hvalid
        · obtain ⟨-, rfl⟩ := runs_ret_iff.mp h₂
          cases hd
          rw [protocolError, isSuccess_error] at hs
          cases hs
        · obtain ⟨-, rfl⟩ := runs_ret_iff.mp h₂
          cases hd
          rw [dictGet_toolResponse.1] at hs
          exact ⟨result, hreq.accepted result rfl,
            isErrorField_eq_false (by simpa using hvalid) (by simpa using hs),
            dictGet_toolResponse.2⟩
    · obtain ⟨answer, rest, rfl, hrest⟩ := (runs_nativeMcpRequest h₁).sent
      exact .called hcalled hprep htool hrest fun d hd => by cases hd

theorem runs_converse {url : Str} {headers : Headers} {args : NativeArgs} {addon : Dict}
    {lead tr : List Exchange} {out : Except Err Dict} (hlead : rpcMethods lead = [])
    (h : Runs (converse url headers args addon) tr out) : Outcome args (lead ++ tr) out := by
  -- a run that ends in front of the tool call
  have hfail {tr : List Exchange} {out : Except Err Dict} (ho : IsFailure out)
      (hm : str "tools/call" ∉ rpcMethods tr) : Outcome args (lead ++ tr) out := by
    refine .failed ?_ ho
    rwa [rpcMethods_append, hlead, List.nil_append]
  have hsingle {method : Str} {params : Json} {headers : Headers} {tr : List Exchange}
      {out : Except Err (Except Dict Dict)} (hr : RequestRun url headers method params tr out)
      (hne : method ≠ str "tools/call") : str "tools/call" ∉ rpcMethods tr := by
    obtain ⟨answer, rest, rfl, hrest⟩ := hr.sent
    rw [rpcMethods_cons_request, hrest]
    simpa using hne.symm
  unfold converse at h
  rcases runs_bind_iff.mp h with ⟨r, trInit, tr₂, h₁, h₂, rfl⟩ | ⟨e, h₁, rfl⟩
  · have hinit := runs_nativeMcpRequest h₁
    have hinitm := hsingle hinit (by decide)
    cases r with
    | error payload =>
      obtain ⟨rfl, rfl⟩ := runs_ret_iff.mp h₂
      rw [List.append_nil]
      exact hfail (isFailure_ok (hinit.failed payload rfl)) hinitm
    | ok initialized =>
      simp only at h₂
      cases hprotocol : supportedProtocol initialized with
      | none =>
        rw [hprotocol] at h₂
        obtain ⟨rfl, rfl⟩ := runs_ret_iff.mp h₂
        rw [List.append_nil]
        exact hfail (isFailure_ok (isSuccess_error _ _ _)) hinitm
      | some protocol =>
        rw [hprotocol] at h₂
        rcases runs_bind_iff.mp h₂ with ⟨r, trNote, tr₄, h₃, h₄, rfl⟩ | ⟨e, h₃, rfl⟩
        · have hnote := runs_nativeMcpRequest h₃
          have hnotem : str "tools/call" ∉ rpcMethods (trInit ++ trNote) := by
            rw [rpcMethods_append, List.mem_append, not_or]
            exact ⟨hinitm, hsingle hnote (by decide)⟩
          cases r with
          | error payload =>
            obtain ⟨rfl, rfl⟩ := runs_ret_iff.mp h₄
            rw [List.append_nil]
            exact hfail (isFailure_ok (hnote.failed payload rfl)) hnotem
          | ok reply =>
            rcases runs_bind_iff.mp h₄ with ⟨r, trList, tr₆, h₅, h₆, rfl⟩ | ⟨e, h₅, rfl⟩
            · cases r with
              | error payload =>
                obtain ⟨rfl, rfl⟩ := runs_ret_iff.mp h₆
                have hlist := runs_listTools h₅
                rw [List.append_nil, ← List.append_assoc trInit]
                refine hfail (isFailure_ok (hlist.failed payload rfl)) ?_
                rw [rpcMethods_append, List.mem_append, not_or]
                exact ⟨hnotem, fun hm => absurd (hlist.methods _ hm) (by decide)⟩
              | ok tools =>
                obtain ⟨pages, hcatalog, rfl, rfl⟩ := runs_listTools_catalog h₅
                rw [← List.append_assoc trNote, ← List.append_assoc trInit, ← List.append_assoc lead]
                refine runs_useCatalog ⟨lead, trInit, trNote, pages, headers, initialized, protocol,
                  reply, ?_, hlead, hinit.accepted _ rfl, hprotocol, rfl, hnote.accepted _ rfl,
                  hcatalog, rfl⟩ h₆
                simp only [List.append_assoc]
            · have hlist := runs_listTools h₅
              rw [← List.append_assoc trInit]
              refine hfail (isFailure_error e) ?_
              rw [rpcMethods_append, List.mem_append, not_or]
              exact ⟨hnotem, fun hm => absurd (hlist.methods _ hm) (by decide)⟩
        · refine hfail (isFailure_error e) ?_
          rw [rpcMethods_append, List.mem_append, not_or]
          exact ⟨hinitm, hsingle (runs_nativeMcpRequest h₃) (by decide)⟩
  · exact hfail (isFailure_error e) (hsingle (runs_nativeMcpRequest h₁) (by decide))

theorem runs_nativeBody {hass : Hass} {args : NativeArgs} {tr : List Exchange}
    {out : Except Err Dict} (h : Runs (nativeBody hass args) tr out) : Outcome args tr out := by
  have hresolve : ∀ {tr out}, Runs (resolveEsphomeAddon args.slug) tr out → rpcMethods tr = [] :=
    rpcMethods_of_issues (Issues.mono (fun _ => isQuiet_of_isRead) (issues_resolveEsphomeAddon _))
  have hroute : ∀ {addon tr out}, Runs (routeForAddon hass addon "api/mcp" none false) tr out →
      rpcMethods tr = [] := rpcMethods_of_issues (issues_routeForAddon (fun _ => rfl)
      (fun _ => isQuiet_of_isSupervisorCall) _ _ _ _ _)
  -- a run that never spoke to the add-on
  have hsilent {tr : List Exchange} {out : Except Err Dict} (hq : rpcMethods tr = [])
      (ho : IsFailure out) : Outcome args tr out := .failed (by rw [hq]; simp) ho
  unfold nativeBody at h
  rcases runs_bind_iff.mp h with ⟨resolved, tr₁, tr₂, h₁, h₂, rfl⟩ | ⟨e, h₁, rfl⟩
  · by_cases hr : isSuccess resolved = true
    · rw [if_neg (by simp [hr])] at h₂
      split at h₂
      · rename_i addon _
        split_ifs at h₂ with hstate
        · obtain ⟨rfl, rfl⟩ := runs_ret_iff.mp h₂
          rw [List.append_nil]
          exact hsilent (hresolve h₁) (isFailure_ok (isSuccess_error _ _ _))
        · rcases runs_bind_iff.mp h₂ with ⟨route, tr₃, tr₄, h₃, h₄, rfl⟩ | ⟨e, h₃, rfl⟩
          · have hq : rpcMethods (tr₁ ++ tr₃) = [] := by
              rw [rpcMethods_append, hresolve h₁, hroute h₃]
              rfl
            rw [← List.append_assoc]
            cases route with
            | error payload =>
              obtain ⟨rfl, rfl⟩ := runs_ret_iff.mp h₄
              rw [List.append_nil]
              exact hsilent hq (isFailure_ok (runs_routeForAddon_error h₃))
            | ok route => exact runs_converse hq h₄
          · refine hsilent ?_ (isFailure_error e)
            rw [rpcMethods_append, hresolve h₁, hroute h₃]
            rfl
      · obtain ⟨rfl, rfl⟩ := runs_raise_iff.mp h₂
        rw [List.append_nil]
        exact hsilent (hresolve h₁) (isFailure_error _)
    · rw [if_pos (by simp [hr])] at h₂
      obtain ⟨rfl, rfl⟩ := runs_ret_iff.mp h₂
      rw [List.append_nil]
      exact hsilent (hresolve h₁) (isFailure_ok (by simpa using hr))
  · exact hsilent (hresolve h₁) (isFailure_error e)

theorem runs_nativeDeviceBuilder {hass : Hass} {args : NativeArgs} {tr : List Exchange}
    {out : Except Err Dict} (h : Runs (nativeDeviceBuilder hass args) tr out) :
    Outcome args tr out ∧ (args.call = true → args.tool = none → tr = []) := by
  -- the argument checks
  have hexit {payload : Dict} (hp : isSuccess payload = false)
      (hr : Runs (ret payload : Coro Dict) tr out) :
      Outcome args tr out ∧ (args.call = true → args.tool = none → tr = []) := by
    obtain ⟨rfl, rfl⟩ := runs_ret_iff.mp hr
    exact ⟨.failed (List.not_mem_nil) (isFailure_ok hp), fun _ _ => rfl⟩
  unfold nativeDeviceBuilder at h
  split_ifs at h with htimeout htool harguments
  · exact hexit (isSuccess_error _ _ _) h
  · exact hexit (isSuccess_error _ _ _) h
  · refine ⟨?_, fun hcall hnone => absurd ⟨hcall, by rw [hnone]; rfl⟩ htool⟩
    rcases runs_tryCatch_iff.mp h with ⟨d, h₁, rfl⟩ | ⟨e, tr₁, tr₂, h₁, h₂, rfl⟩
    · exact runs_nativeBody h₁
    · obtain ⟨hquiet, hfail⟩ := runs_nativeHandler h₂
      exact (runs_nativeBody h₁).handled hquiet hfail
  · exact hexit (isSuccess_error _ _ _) h

/-- The native call protocol, read off the exchanges and the outcome of a run. -/
structure NativeRun (args : NativeArgs) (tr : List Exchange) (out : Except Err Dict) : Prop where
  /-- At most one tool call is sent. -/
  once : (rpcMethods tr).count (str "tools/call") ≤ 1
  /-- It is sent for a call, behind the preparation, for a tool the catalog has. -/
  called : str "tools/call" ∈ rpcMethods tr → args.call = true ∧
    ∃ url headers lead tools tool answer rest,
      tr = lead ++ rpcRequest url headers "tools/call" args.callParams answer :: rest ∧
      Prepared url headers lead tools ∧ args.tool = some tool ∧
      ∃ entry ∈ tools, entry.get "name" = .str tool
  /-- Without `call` no tool call is sent, and a success lists the whole catalog by name. -/
  listed : args.call = false → str "tools/call" ∉ rpcMethods tr ∧
    ∀ d, out = .ok d → isSuccess d = true → ∃ url headers tools,
      Prepared url headers tr tools ∧ dictGet d "tools" = .arr (selectTools args.tool tools)
  /-- With `call` a success carries the accepted reply unchanged, which reports no error. -/
  replied : args.call = true → ∀ d, out = .ok d → isSuccess d = true →
    ∃ url headers lead tools reply result, tr = lead ++ reply ∧
      Prepared url headers lead tools ∧
      Accepted url headers "tools/call" args.callParams reply result ∧
      isErrorField result = .bool false ∧ dictGet d "result" = .obj result

/-- Whatever the Supervisor and the add-on answer, a run follows the native call protocol. -/
theorem nativeDeviceBuilder_spec (hass : Hass) (args : NativeArgs) :
    Spec (nativeDeviceBuilder hass args) (NativeRun args) := by
  intro tr out h
  obtain ⟨houtcome, hnone⟩ := runs_nativeDeviceBuilder h
  cases houtcome with
  | failed hcall hout =>
    have hsuccess {d : Dict} (hd : out = .ok d) (hs : isSuccess d = true) : False := by
      rw [hout d hd] at hs
      cases hs
    exact ⟨by rw [List.count_eq_zero_of_not_mem hcall]; omega, fun hm => absurd hm hcall,
      fun _ => ⟨hcall, fun d hd hs => (hsuccess hd hs).elim⟩,
      fun _ d hd hs => (hsuccess hd hs).elim⟩
  | listed hcall hprep hd =>
    refine ⟨by rw [List.count_eq_zero_of_not_mem hprep.rpcMethods]; omega,
      fun hm => absurd hm hprep.rpcMethods, fun _ => ⟨hprep.rpcMethods, fun d' he _ => ?_⟩,
      fun hc => by rw [hcall] at hc; cases hc⟩
    cases he
    exact ⟨_, _, _, hprep, hd⟩
  | called hcall hprep htool hrest hd =>
    rename_i url headers lead rest tools answer
    obtain ⟨tool, ht⟩ : ∃ tool, args.tool = some tool := by
      refine Option.ne_none_iff_exists'.mp fun hn => ?_
      exact absurd (hnone hcall hn) (by simp)
    rw [ht] at htool
    refine ⟨?_, fun _ => ⟨hcall, url, headers, lead, tools, tool, answer, rest, rfl, hprep, ht,
      exists_of_selectTools_ne_nil (htool rfl)⟩, fun hc => ?_, ?_⟩
    · rw [rpcMethods_append, rpcMethods_cons_request, hrest, List.count_append,
        List.count_eq_zero_of_not_mem hprep.rpcMethods]
      simp
    · rw [hcall] at hc
      cases hc
    · intro _ d he hs
      obtain ⟨result, haccepted, herror, hresult⟩ := hd d he hs
      exact ⟨url, headers, lead, tools, _, result, rfl, hprep, haccepted, herror, hresult⟩

end

end EsphomeMcp.Addon
