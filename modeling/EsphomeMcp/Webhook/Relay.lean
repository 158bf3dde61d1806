import EsphomeMcp.Webhook.AdminGate

/-!
# What the relay passes on

The answer of the loopback server reaches the client as it is: a streamed one chunk by chunk, in
the order the chunks were read, and any other in one piece. Whatever fails, at most the chunk that
could not be written is missing, and no answer is begun anew behind the headers of a stream unless
something failed that is no upstream error.
-/

namespace EsphomeMcp.Webhook

open Py Py.Prog

/-! ## Statements -/

/-- The chunk that came from upstream. -/
def readChunk? : Event → Option Bytes
  | ⟨.nextChunk, .ok (some chunk)⟩ => some chunk
  | _ => none

/-- The chunk that was written to the client. -/
def writtenChunk? : Event → Option Bytes
  | ⟨.writeChunk chunk, .ok ()⟩ => some chunk
  | _ => none

/-- The chunks a run read from upstream, in order. -/
def chunksRead (tr : List Event) : List Bytes := tr.filterMap readChunk?

/-- The chunks a run wrote to the client, in order. -/
def chunksWritten (tr : List Event) : List Bytes := tr.filterMap writtenChunk?

/-- The headers of a stream are out. -/
def IsPrepared (tr : List Event) : Prop :=
  ∃ status headers, (⟨.prepare status headers, .ok ()⟩ : Event) ∈ tr

/-- The response of the loopback server has begun. -/
def IsAnsweredBy (tr : List Event) (upstream : Upstream) : Prop :=
  ∃ o, (⟨.sessionRequest o, .ok upstream⟩ : Event) ∈ tr

/-- Nothing of the stream is missing but a chunk that could not be written. -/
def LosesNoChunk (tr : List Event) : Prop :=
  chunksRead tr = chunksWritten tr ∨ ∃ chunk e, chunksRead tr = chunksWritten tr ++ [chunk] ∧
    (⟨.writeChunk chunk, .error e⟩ : Event) ∈ tr

section

variable [Runtime]

/-- What one webhook request passes on, whatever the client and the loopback server do. -/
structure Relays (request : Request) (tr : List Event) (out : Except Err Response) : Prop where
  sent : ∀ o r, (⟨.sessionRequest o, r⟩ : Event) ∈ tr → ∃ cfg body, ReadCfg tr cfg ∧
    (⟨.readBody, .ok body⟩ : Event) ∈ tr ∧ o = outgoing request cfg body
  inOrder : LosesNoChunk tr
  ended : (⟨.nextChunk, .ok none⟩ : Event) ∈ tr → chunksRead tr = chunksWritten tr
  streamed : ∀ response, out = .ok response → response.payload = .streamed →
    (∃ upstream, IsAnsweredBy tr upstream ∧ response.status = upstream.status) ∧
      IsPrepared tr ∧ ∃ r, tr.getLast? = some ⟨.writeEof, r⟩
  whole : ∀ response body, out = .ok response → response.payload = .bytes body →
    (∃ upstream, IsAnsweredBy tr upstream ∧ response.status = upstream.status) ∧
      tr.getLast? = some ⟨.readUpstream, .ok body⟩ ∧ ¬IsPrepared tr
  behindHeaders : ∀ response text, out = .ok response → response.payload = .text text →
    IsPrepared tr → response.status = 500 ∨ ∃ e, tr.getLast? = some ⟨.writeEof, .error e⟩ ∧
      e.isClientError = true ∧ e.isConnectionReset = false

end

/-! ## The chunks -/

theorem chunksRead_append (tr tr' : List Event) :
    chunksRead (tr ++ tr') = chunksRead tr ++ chunksRead tr' := List.filterMap_append

theorem chunksWritten_append (tr tr' : List Event) :
    chunksWritten (tr ++ tr') = chunksWritten tr ++ chunksWritten tr' := List.filterMap_append

/-- A command that neither reads nor writes a chunk. -/
def IsUnchunked : Cmd → Prop
  | .nextChunk => False
  | .writeChunk _ => False
  | _ => True

theorem chunks_of_unchunked {tr : List Event} (h : ∀ ev ∈ tr, IsUnchunked ev.cmd) :
    chunksRead tr = [] ∧ chunksWritten tr = [] := by
  simp only [chunksRead, chunksWritten, List.filterMap_eq_nil_iff]
  constructor
  all_goals
    intro ev hev
    have hcmd := h ev hev
    obtain ⟨c, r⟩ := ev
    cases c with
    | nextChunk => exact hcmd.elim
    | writeChunk _ => exact hcmd.elim
    | _ => rfl

/-- The runs of the loop over the chunks. -/
inductive ChunkTrace : List Event → Except Err Unit → Prop
  | cut : ChunkTrace [] (.error .diverged)
  | ended : ChunkTrace [⟨.nextChunk, .ok none⟩] (.ok ())
  | dropped (e : Err) : ChunkTrace [⟨.nextChunk, .error e⟩] (.error e)
  | unwritten (chunk : Bytes) (e : Err) :
      ChunkTrace [⟨.nextChunk, .ok (some chunk)⟩, ⟨.writeChunk chunk, .error e⟩] (.error e)
  | next (chunk : Bytes) {tr : List Event} {out : Except Err Unit} : ChunkTrace tr out →
      ChunkTrace (⟨.nextChunk, .ok (some chunk)⟩ :: ⟨.writeChunk chunk, .ok ()⟩ :: tr) out

theorem runs_await_iff {c : Cmd} {tr : List Event} {out : Except Err c.Ans} :
    Runs (await c) tr out ↔ tr = [⟨c, out⟩] := runs_perform_iff

theorem chunkTrace_of_runs {fuel : ℕ} {tr : List Event} {out : Except Err Unit}
    (h : Runs (relayChunks fuel) tr out) : ChunkTrace tr out := by
  induction fuel generalizing tr with
  | zero =>
    obtain ⟨rfl, rfl⟩ := runs_raise_iff.mp h
    exact .cut
  | succ fuel ih =>
    rcases runs_bind_iff.mp h with ⟨read, tr₁, tr₂, h₁, h₂, rfl⟩ | ⟨e, h₁, rfl⟩
    · obtain rfl := runs_await_iff.mp h₁
      cases read with
      | none =>
        obtain ⟨rfl, rfl⟩ := runs_ret_iff.mp h₂
        exact .ended
      | some chunk =>
        rcases runs_bind_iff.mp h₂ with ⟨_, tr₃, tr₄, h₃, h₄, rfl⟩ | ⟨e, h₃, rfl⟩
        · obtain rfl := runs_await_iff.mp h₃
          exact .next chunk (ih h₄)
        · obtain rfl := runs_await_iff.mp h₃
          exact .unwritten chunk e
    · obtain rfl := runs_await_iff.mp h₁
      exact .dropped e

theorem LosesNoChunk.cons {chunk : Bytes} {tr : List Event} (h : LosesNoChunk tr) :
    LosesNoChunk (⟨.nextChunk, .ok (some chunk)⟩ :: ⟨.writeChunk chunk, .ok ()⟩ :: tr) := by
  rcases h with h | ⟨last, e, h, hmem⟩
  · exact .inl (congrArg (chunk :: ·) h)
  · refine .inr ⟨last, e, congrArg (chunk :: ·) h, ?_⟩
    exact List.mem_cons_of_mem _ (List.mem_cons_of_mem _ hmem)

/-- The loop writes what it reads. -/
theorem ChunkTrace.losesNoChunk {tr : List Event} {out : Except Err Unit} (h : ChunkTrace tr out) :
    LosesNoChunk tr := by
  induction h with
  | cut => exact .inl rfl
  | ended => exact .inl rfl
  | dropped e => exact .inl rfl
  | unwritten chunk e => exact .inr ⟨chunk, e, rfl, by simp⟩
  | next chunk _ ih => exact ih.cons

/-- A stream that upstream ended was written to its end. -/
theorem ChunkTrace.written_of_ended {tr : List Event} {out : Except Err Unit}
    (h : ChunkTrace tr out) (hend : (⟨.nextChunk, .ok none⟩ : Event) ∈ tr) :
    chunksRead tr = chunksWritten tr := by
  induction h with
  | cut => rfl
  | ended => rfl
  | dropped e => rfl
  | unwritten chunk e => simp at hend
  | next chunk _ ih =>
    refine congrArg (chunk :: ·) (ih ?_)
    simpa using hend

/-- A command of the loop over the chunks. -/
def IsChunked : Cmd → Prop
  | .nextChunk => True
  | .writeChunk _ => True
  | _ => False

theorem ChunkTrace.isChunked {tr : List Event} {out : Except Err Unit} (h : ChunkTrace tr out) :
    ∀ ev ∈ tr, IsChunked ev.cmd := by
  induction h with
  | cut => simp
  | ended => simp [IsChunked]
  | dropped e => simp [IsChunked]
  | unwritten chunk e => simp [IsChunked]
  | next chunk _ ih => simpa [IsChunked] using ih

/-! ## An answer -/

/-- The runs of `relay`. -/
inductive RelayTrace (upstream : Upstream) : List Event → Except Err Response → Prop
  | whole (headers : CIMultiDict) (body : Bytes) :
      RelayTrace upstream [⟨.readUpstream, .ok body⟩]
        (.ok ⟨upstream.status, headers, .bytes body⟩)
  | unread (e : Err) : RelayTrace upstream [⟨.readUpstream, .error e⟩] (.error e)
  | unprepared (status : ℕ) (headers : CIMultiDict) (e : Err) :
      RelayTrace upstream [⟨.prepare status headers, .error e⟩] (.error e)
  | broken (status : ℕ) (headers : CIMultiDict) {tr : List Event} {e : Err} :
      ChunkTrace tr (.error e) → e.isClientError = false →
      RelayTrace upstream (⟨.prepare status headers, .ok ()⟩ :: tr) (.error e)
  | closed (status : ℕ) (headers : CIMultiDict) {tr : List Event} {out : Except Err Unit}
      (r : Except Err Unit) : ChunkTrace tr out →
      RelayTrace upstream (⟨.prepare status headers, .ok ()⟩ :: (tr ++ [⟨.writeEof, r⟩]))
        (.ok ⟨upstream.status, headers, .streamed⟩)
  | unclosed (status : ℕ) (headers : CIMultiDict) {tr : List Event} {out : Except Err Unit}
      {e : Err} : ChunkTrace tr out → e.isConnectionReset = false →
      RelayTrace upstream (⟨.prepare status headers, .ok ()⟩ :: (tr ++ [⟨.writeEof, .error e⟩]))
        (.error e)

/-- The loop, with an upstream that drops taken for one that ends. -/
theorem chunks_of_runs {fuel : ℕ} {tr : List Event} {out : Except Err Unit}
    (h : Runs (except Err.isClientError (relayChunks fuel) fun _ => return ()) tr out) :
    ∃ ended, ChunkTrace tr ended ∧
      (out = .ok () ∨ ∃ e, ended = .error e ∧ out = .error e ∧ e.isClientError = false) := by
  rcases runs_tryCatch_iff.mp h with ⟨_, h₁, rfl⟩ | ⟨e, tr₁, tr₂, h₁, h₂, rfl⟩
  · exact ⟨_, chunkTrace_of_runs h₁, .inl rfl⟩
  · refine ⟨.error e, ?_⟩
    split_ifs at h₂ with hclient
    · obtain ⟨rfl, rfl⟩ := runs_ret_iff.mp h₂
      rw [List.append_nil]
      exact ⟨chunkTrace_of_runs h₁, .inl rfl⟩
    · obtain ⟨rfl, rfl⟩ := runs_raise_iff.mp h₂
      rw [List.append_nil]
      exact ⟨chunkTrace_of_runs h₁, .inr ⟨e, rfl, rfl, Bool.eq_false_iff.mpr hclient⟩⟩

/-- The end of the stream, a client that is gone taken for one that has it. -/
theorem eof_of_runs {tr : List Event} {out : Except Err Unit}
    (h : Runs (suppress Err.isConnectionReset (await .writeEof)) tr out) :
    ∃ r, tr = [⟨.writeEof, r⟩] ∧
      (out = .ok () ∨ ∃ e, r = .error e ∧ out = .error e ∧ e.isConnectionReset = false) := by
  rcases runs_tryCatch_iff.mp h with ⟨_, h₁, rfl⟩ | ⟨e, tr₁, tr₂, h₁, h₂, rfl⟩
  · exact ⟨_, runs_await_iff.mp h₁, .inl rfl⟩
  · obtain rfl := runs_await_iff.mp h₁
    refine ⟨.error e, ?_⟩
    split_ifs at h₂ with hreset
    · obtain ⟨rfl, rfl⟩ := runs_ret_iff.mp h₂
      exact ⟨rfl, .inl rfl⟩
    · obtain ⟨rfl, rfl⟩ := runs_raise_iff.mp h₂
      exact ⟨rfl, .inr ⟨e, rfl, rfl, Bool.eq_false_iff.mpr hreset⟩⟩

section

variable [Runtime]

theorem relayTrace_of_runs {fuel : ℕ} {upstream : Upstream} {tr : List Event}
    {out : Except Err Response} (h : Runs (relay fuel upstream) tr out) :
    RelayTrace upstream tr out := by
  unfold relay at h
  simp only at h
  split at h
  · rcases runs_bind_iff.mp h with ⟨_, tr₁, tr₂, h₁, h₂, rfl⟩ | ⟨e, h₁, rfl⟩
    · obtain rfl := runs_await_iff.mp h₁
      rcases runs_bind_iff.mp h₂ with ⟨_, tr₃, tr₄, h₃, h₄, rfl⟩ | ⟨e, h₃, rfl⟩
      · obtain ⟨ended, hchunks, -⟩ := chunks_of_runs h₃
        rcases runs_bind_iff.mp h₄ with ⟨_, tr₅, tr₆, h₅, h₆, rfl⟩ | ⟨e, h₅, rfl⟩
        · obtain ⟨r, rfl, -⟩ := eof_of_runs h₅
          obtain ⟨rfl, rfl⟩ := runs_ret_iff.mp h₆
          exact .closed _ _ r hchunks
        · obtain ⟨r, rfl, hout | ⟨e', rfl, he, hreset⟩⟩ := eof_of_runs h₅
          · cases hout
          · obtain rfl := Except.error.inj he
            exact .unclosed _ _ hchunks hreset
      · obtain ⟨ended, hchunks, hout | ⟨e', rfl, he, hclient⟩⟩ := chunks_of_runs h₃
        · cases hout
        · obtain rfl := Except.error.inj he
          exact .broken _ _ hchunks hclient
    · obtain rfl := runs_await_iff.mp h₁
      exact .unprepared _ _ e
  · rcases runs_bind_iff.mp h with ⟨body, tr₁, tr₂, h₁, h₂, rfl⟩ | ⟨e, h₁, rfl⟩
    · obtain rfl := runs_await_iff.mp h₁
      obtain ⟨rfl, rfl⟩ := runs_ret_iff.mp h₂
      exact .whole _ body
    · obtain rfl := runs_await_iff.mp h₁
      exact .unread e

/-! ## What an answer passes on -/

omit [Runtime] in
theorem LosesNoChunk.between {pre tr post : List Event} (h : LosesNoChunk tr)
    (hpre : ∀ ev ∈ pre, IsUnchunked ev.cmd) (hpost : ∀ ev ∈ post, IsUnchunked ev.cmd) :
    LosesNoChunk (pre ++ (tr ++ post)) := by
  obtain ⟨hread, hwritten⟩ := chunks_of_unchunked hpre
  obtain ⟨hread', hwritten'⟩ := chunks_of_unchunked hpost
  simp only [LosesNoChunk, chunksRead_append, chunksWritten_append, hread, hwritten, hread',
    hwritten', List.nil_append, List.append_nil]
  refine h.imp_right fun hlast => ?_
  obtain ⟨chunk, e, hchunks, hmem⟩ := hlast
  exact ⟨chunk, e, hchunks, List.mem_append_right _ (List.mem_append_left _ hmem)⟩

/-- What the answer of one upstream response passes on. -/
structure Passes (upstream : Upstream) (tr : List Event) (out : Except Err Response) : Prop where
  unsent : ∀ ev ∈ tr, ∀ o, ev.cmd ≠ .sessionRequest o
  inOrder : LosesNoChunk tr
  ended : (⟨.nextChunk, .ok none⟩ : Event) ∈ tr → chunksRead tr = chunksWritten tr
  streamed : ∀ response, out = .ok response → response.payload = .streamed →
    response.status = upstream.status ∧ IsPrepared tr ∧ ∃ r, tr.getLast? = some ⟨.writeEof, r⟩
  whole : ∀ response body, out = .ok response → response.payload = .bytes body →
    response.status = upstream.status ∧ tr.getLast? = some ⟨.readUpstream, .ok body⟩ ∧
      ¬IsPrepared tr
  noText : ∀ response text, out = .ok response → response.payload ≠ .text text
  behindHeaders : ∀ e, out = .error e → IsPrepared tr → e.isClientError = true →
    tr.getLast? = some ⟨.writeEof, .error e⟩ ∧ e.isConnectionReset = false

omit [Runtime] in
/-- The headers, the chunks and whatever follows them. -/
theorem passes_of_stream {upstream : Upstream} {status : ℕ} {headers : CIMultiDict}
    {tr post : List Event} {ended : Except Err Unit} {out : Except Err Response}
    (hchunks : ChunkTrace tr ended) (hpost : ∀ ev ∈ post, ∃ r, ev = ⟨.writeEof, r⟩)
    (hout : ∀ response, out = .ok response → response = ⟨upstream.status, headers, .streamed⟩ ∧
      ∃ r, post = [⟨.writeEof, r⟩])
    (herror : ∀ e, out = .error e → e.isClientError = true →
      post = [⟨.writeEof, .error e⟩] ∧ e.isConnectionReset = false) :
    Passes upstream (⟨.prepare status headers, .ok ()⟩ :: (tr ++ post)) out := by
  have hpre : ∀ ev ∈ [(⟨.prepare status headers, .ok ()⟩ : Event)], IsUnchunked ev.cmd := by
    simp [IsUnchunked]
  have hlast : ∀ ev ∈ post, IsUnchunked ev.cmd := by
    intro ev hev
    obtain ⟨r, rfl⟩ := hpost ev hev
    trivial
  have hprepared : IsPrepared (⟨.prepare status headers, .ok ()⟩ :: (tr ++ post)) :=
    ⟨status, headers, List.mem_cons_self⟩
  constructor
  case unsent =>
    intro ev hev o
    rcases List.mem_cons.mp hev with rfl | hev
    · simp
    · rcases List.mem_append.mp hev with hev | hev
      · intro hcmd
        have hchunked := hchunks.isChunked ev hev
        rw [hcmd] at hchunked
        exact hchunked
      · obtain ⟨r, rfl⟩ := hpost ev hev
        simp
  case inOrder => exact hchunks.losesNoChunk.between hpre hlast
  case ended =>
    intro hend
    have hmem : (⟨.nextChunk, .ok none⟩ : Event) ∈ tr := by
      rcases List.mem_cons.mp hend with he | hend
      · cases congrArg Event.cmd he
      · rcases List.mem_append.mp hend with hend | hend
        · exact hend
        · obtain ⟨r, he⟩ := hpost _ hend
          cases congrArg Event.cmd he
    have hall := hchunks.written_of_ended hmem
    show chunksRead ([_] ++ (tr ++ post)) = chunksWritten ([_] ++ (tr ++ post))
    simp only [chunksRead_append, chunksWritten_append, (chunks_of_unchunked hpre).1,
      (chunks_of_unchunked hpre).2, (chunks_of_unchunked hlast).1, (chunks_of_unchunked hlast).2,
      hall]
  case streamed =>
    intro response hresponse _
    obtain ⟨rfl, r, rfl⟩ := hout response hresponse
    refine ⟨rfl, hprepared, r, ?_⟩
    rw [← List.cons_append, List.getLast?_append_cons]
    rfl
  case whole =>
    intro response body hresponse hbody
    obtain ⟨rfl, -⟩ := hout response hresponse
    cases hbody
  case noText =>
    intro response text hresponse htext
    obtain ⟨rfl, -⟩ := hout response hresponse
    cases htext
  case behindHeaders =>
    intro e he _ hclient
    obtain ⟨rfl, hreset⟩ := herror e he hclient
    refine ⟨?_, hreset⟩
    rw [← List.cons_append, List.getLast?_append_cons]
    rfl

omit [Runtime] in
/-- One command that prepares nothing, reads the body or fails. -/
theorem passes_of_single {upstream : Upstream} {ev : Event} {out : Except Err Response}
    (hev : IsUnchunked ev.cmd) (hsend : ∀ o, ev.cmd ≠ .sessionRequest o)
    (hprepared : ¬IsPrepared [ev])
    (hout : ∀ response, out = .ok response → ∃ headers body,
      response = ⟨upstream.status, headers, .bytes body⟩ ∧ ev = ⟨.readUpstream, .ok body⟩) :
    Passes upstream [ev] out := by
  have hunchunked : ∀ ev' ∈ [ev], IsUnchunked ev'.cmd := by simpa using hev
  obtain ⟨hread, hwritten⟩ := chunks_of_unchunked hunchunked
  constructor
  case unsent => simpa using hsend
  case inOrder => exact .inl (hread.trans hwritten.symm)
  case ended => exact fun _ => hread.trans hwritten.symm
  case streamed =>
    intro response hresponse hstreamed
    obtain ⟨headers, body, rfl, -⟩ := hout response hresponse
    cases hstreamed
  case whole =>
    intro response body hresponse hbody
    obtain ⟨headers, body', rfl, rfl⟩ := hout response hresponse
    obtain rfl := Payload.bytes.inj hbody
    exact ⟨rfl, rfl, hprepared⟩
  case noText =>
    intro response text hresponse htext
    obtain ⟨headers, body, rfl, -⟩ := hout response hresponse
    cases htext
  case behindHeaders => exact fun _ _ h => absurd h hprepared

omit [Runtime] in
theorem RelayTrace.passes {upstream : Upstream} {tr : List Event} {out : Except Err Response}
    (h : RelayTrace upstream tr out) : Passes upstream tr out := by
  cases h with
  | whole headers body =>
    refine passes_of_single trivial (by simp) (by simp [IsPrepared]) ?_
    intro response hresponse
    exact ⟨headers, body, (Except.ok.inj hresponse).symm, rfl⟩
  | unread e => exact passes_of_single trivial (by simp) (by simp [IsPrepared]) (by simp)
  | unprepared status headers e =>
    exact passes_of_single trivial (by simp) (by simp [IsPrepared]) (by simp)
  | broken status headers hchunks hclient =>
    rename_i tr e
    rw [← List.append_nil tr]
    refine passes_of_stream hchunks (by simp) (by simp) fun e' he hclient' => ?_
    obtain rfl := Except.error.inj he
    rw [hclient] at hclient'
    cases hclient'
  | closed status headers r hchunks =>
    refine passes_of_stream hchunks (by simp) ?_ (by simp)
    intro response hresponse
    exact ⟨(Except.ok.inj hresponse).symm, r, rfl⟩
  | unclosed status headers hchunks hreset =>
    refine passes_of_stream hchunks (by simp) (by simp) fun e' he _ => ?_
    obtain rfl := Except.error.inj he
    exact ⟨rfl, hreset⟩

/-! ## A request -/

/-- How an error of the upstream request is answered. -/
def answered : Except Err Response → Except Err Response
  | .ok response => .ok response
  | .error e =>
    if e.isClientError then .ok ⟨502, [], .text "ESPHome MCP server unavailable"⟩
    else if e.isException then .ok ⟨500, [], .text "ESPHome MCP server internal error"⟩
    else .error e

/-- Sending is the first thing `forward` does, and all it does when it fails. -/
theorem forwarded_of_runs {fuel : ℕ} {o : Outgoing} {tr : List Event} {out : Except Err Response}
    (h : Runs (forward fuel o) tr out) :
    (∃ e, tr = [⟨.sessionRequest o, .error e⟩] ∧ out = answered (.error e)) ∨
    ∃ upstream rest out', tr = ⟨.sessionRequest o, .ok upstream⟩ :: rest ∧
      Passes upstream rest out' ∧ out = answered out' := by
  have hexchange {tr : List Event} {out : Except Err Response}
      (h : Runs (Prog.bind (await (.sessionRequest o)) (relay fuel)) tr out) :
      (∃ e, tr = [⟨.sessionRequest o, .error e⟩] ∧ out = .error e) ∨
      ∃ upstream rest, tr = ⟨.sessionRequest o, .ok upstream⟩ :: rest ∧
        Passes upstream rest out := by
    rcases runs_bind_iff.mp h with ⟨upstream, tr₁, tr₂, h₁, h₂, rfl⟩ | ⟨e, h₁, rfl⟩
    · obtain rfl := runs_await_iff.mp h₁
      exact .inr ⟨upstream, tr₂, rfl, (relayTrace_of_runs h₂).passes⟩
    · exact .inl ⟨e, runs_await_iff.mp h₁, rfl⟩
  rcases runs_tryCatch_iff.mp h with ⟨response, h₁, rfl⟩ | ⟨e, tr₁, tr₂, h₁, h₂, rfl⟩
  · rcases hexchange h₁ with ⟨e, -, he⟩ | ⟨upstream, rest, rfl, hpasses⟩
    · cases he
    · exact .inr ⟨upstream, rest, _, rfl, hpasses, rfl⟩
  · have hhandled : tr₂ = [] ∧ out = answered (.error e) := by
      rw [answered]
      split_ifs at h₂ ⊢
      · exact runs_ret_iff.mp h₂
      · exact runs_ret_iff.mp h₂
      · exact runs_raise_iff.mp h₂
    obtain ⟨rfl, rfl⟩ := hhandled
    rw [List.append_nil]
    rcases hexchange h₁ with ⟨e', rfl, he⟩ | ⟨upstream, rest, rfl, hpasses⟩
    · obtain rfl := Except.error.inj he
      exact .inl ⟨e, rfl, rfl⟩
    · exact .inr ⟨upstream, rest, _, rfl, hpasses, rfl⟩

/-- A command of a request before it sends. -/
def IsGate : Cmd → Prop
  | .activeWebhookCfg => True
  | .readBody => True
  | c => Validates c

omit [Runtime] in
theorem IsGate.of_validates {c : Cmd} (h : Validates c) : IsGate c := by
  cases c <;> first | exact h | trivial

omit [Runtime] in
theorem IsGate.quiet {ev : Event} (h : IsGate ev.cmd) : IsUnchunked ev.cmd ∧
    (∀ o, ev.cmd ≠ .sessionRequest o) ∧ ∀ status headers, ev.cmd ≠ .prepare status headers := by
  obtain ⟨c, r⟩ := ev
  cases c <;> first | exact h.elim | simp [IsUnchunked]

/-- What the gate answers is the challenge. -/
theorem refused_text {request : Request} {cfg : Cfg} {gate : List Event} {response : Response}
    (h : Runs (checkWebhookAuth request cfg) gate (.ok (some response))) :
    ∃ text, response.payload = .text text := by
  unfold checkWebhookAuth at h
  split at h
  · cases (runs_ret_iff.mp h).2
  · rcases runs_bind_iff.mp h with ⟨passed, tr₁, tr₂, -, h₂, -⟩ | ⟨e, -, he⟩
    · cases passed with
      | true => cases (runs_ret_iff.mp h₂).2
      | false =>
        obtain rfl := Option.some.inj (Except.ok.inj (runs_ret_iff.mp h₂).2)
        exact ⟨_, rfl⟩
    · cases he

/-- A request is answered at its gate, or sends what it read. -/
theorem handled_of_runs {fuel : ℕ} {request : Request} {tr : List Event}
    {out : Except Err Response} (h : Runs (asyncHandleWebhook fuel request) tr out) :
    ((∀ ev ∈ tr, IsGate ev.cmd) ∧ ∀ response, out = .ok response →
      ∃ text, response.payload = .text text) ∨
    ∃ cfg gate body rest, tr = (⟨.activeWebhookCfg, .ok (some cfg)⟩ :: gate ++
        [⟨.readBody, .ok body⟩]) ++ rest ∧
      (∀ ev ∈ gate, IsGate ev.cmd) ∧ Runs (forward fuel (outgoing request cfg body)) rest out := by
  rcases runs_bind_iff.mp h with ⟨read, tr₁, tr₂, h₁, h₂, rfl⟩ | ⟨e, h₁, rfl⟩
  swap
  · obtain rfl := runs_await_iff.mp h₁
    exact .inl ⟨by simp [IsGate], by simp⟩
  obtain rfl := runs_await_iff.mp h₁
  cases read with
  | none =>
    obtain ⟨rfl, rfl⟩ := runs_ret_iff.mp h₂
    exact .inl ⟨by simp [IsGate], by simp⟩
  | some cfg =>
    have hgate {gate : List Event} {answer : Except Err (Option Response)}
        (hrun : Runs (checkWebhookAuth request cfg) gate answer) : ∀ ev ∈ gate, IsGate ev.cmd :=
      fun ev hev => .of_validates ((issues_checkWebhookAuth request cfg).of_runs hrun ev hev)
    rcases runs_bind_iff.mp h₂ with ⟨answer, gate, tr₃, h₃, h₄, rfl⟩ | ⟨e, h₃, rfl⟩
    · cases answer with
      | some response =>
        obtain ⟨rfl, rfl⟩ := runs_ret_iff.mp h₄
        refine .inl ⟨by simpa [IsGate] using hgate h₃, fun response' hout => ?_⟩
        obtain rfl := Except.ok.inj hout
        exact refused_text h₃
      | none =>
        rcases runs_bind_iff.mp h₄ with ⟨body, tr₄, tr₅, h₅, h₆, rfl⟩ | ⟨e, h₅, rfl⟩
        · obtain rfl := runs_await_iff.mp h₅
          exact .inr ⟨cfg, gate, body, tr₅, by simp, hgate h₃, h₆⟩
        · obtain rfl := runs_await_iff.mp h₅
          refine .inl ⟨?_, by simp⟩
          simpa [IsGate, or_imp, forall_and] using hgate h₃
    · exact .inl ⟨by simpa [IsGate] using hgate h₃, by simp⟩

omit [Runtime] in
theorem not_isPrepared_of_gate {tr : List Event} (h : ∀ ev ∈ tr, IsGate ev.cmd) :
    ¬IsPrepared tr := by
  rintro ⟨status, headers, hmem⟩
  exact (h _ hmem).quiet.2.2 status headers rfl

/-- A request that is answered at its gate passes nothing on. -/
theorem relays_of_gate {request : Request} {tr : List Event} {out : Except Err Response}
    (hgate : ∀ ev ∈ tr, IsGate ev.cmd)
    (hout : ∀ response, out = .ok response → ∃ text, response.payload = .text text) :
    Relays request tr out := by
  obtain ⟨hread, hwritten⟩ := chunks_of_unchunked fun ev hev => (hgate ev hev).quiet.1
  have hunprepared := not_isPrepared_of_gate hgate
  constructor
  case sent => exact fun o r hmem => absurd rfl ((hgate _ hmem).quiet.2.1 o)
  case inOrder => exact .inl (hread.trans hwritten.symm)
  case ended => exact fun _ => hread.trans hwritten.symm
  case streamed =>
    intro response hresponse hstreamed
    obtain ⟨text, htext⟩ := hout response hresponse
    rw [htext] at hstreamed
    cases hstreamed
  case whole =>
    intro response body hresponse hbody
    obtain ⟨text, htext⟩ := hout response hresponse
    rw [htext] at hbody
    cases hbody
  case behindHeaders => exact fun _ _ _ _ hprepared => absurd hprepared hunprepared

omit [Runtime] in
/-- An error answer has a text, and a 502 stands for an upstream error. -/
theorem answered_error {e : Err} {response : Response}
    (h : answered (.error e) = .ok response) : (∃ text, response.payload = .text text) ∧
      (response.status = 500 ∨ e.isClientError = true) := by
  rw [answered] at h
  split_ifs at h with hclient
  · obtain rfl := Except.ok.inj h
    exact ⟨⟨_, rfl⟩, .inr hclient⟩
  · obtain rfl := Except.ok.inj h
    exact ⟨⟨_, rfl⟩, .inl rfl⟩

omit [Runtime] in
theorem getLast?_append_cons_append {α : Type} {l rest : List α} {a b : α}
    (h : rest.getLast? = some b) : (l ++ a :: rest).getLast? = some b := by
  rw [List.getLast?_append_cons, List.getLast?_cons, h]
  rfl

section

variable {request : Request} {cfg : Cfg} {body : Bytes} {lead : List Event}

/-- Behind the gate only what was read is sent. -/
theorem sent_of_lead {tr : List Event} (hlead : ∀ ev ∈ lead, IsGate ev.cmd)
    (hcfg : ReadCfg lead cfg) (hbody : (⟨.readBody, .ok body⟩ : Event) ∈ lead)
    (htr : ∀ o r, (⟨.sessionRequest o, r⟩ : Event) ∈ tr → o = outgoing request cfg body)
    (o : Outgoing) (r : Except Err Upstream) (hmem : (⟨.sessionRequest o, r⟩ : Event) ∈ lead ++ tr) :
    ∃ cfg body, ReadCfg (lead ++ tr) cfg ∧ (⟨.readBody, .ok body⟩ : Event) ∈ lead ++ tr ∧
      o = outgoing request cfg body := by
  rcases List.mem_append.mp hmem with hmem | hmem
  · exact absurd rfl ((hlead _ hmem).quiet.2.1 o)
  · exact ⟨cfg, body, List.mem_append_left _ hcfg, List.mem_append_left _ hbody, htr o r hmem⟩

omit [Runtime] in
/-- The headers of a stream go out behind the gate and the request. -/
theorem isPrepared_lead_iff (hlead : ∀ ev ∈ lead, IsGate ev.cmd) (o : Outgoing)
    (r : Except Err Upstream) (rest : List Event) :
    IsPrepared (lead ++ ⟨.sessionRequest o, r⟩ :: rest) ↔ IsPrepared rest := by
  constructor
  · rintro ⟨status, headers, hmem⟩
    rcases List.mem_append.mp hmem with hmem | hmem
    · exact absurd ⟨status, headers, hmem⟩ (not_isPrepared_of_gate hlead)
    · rcases List.mem_cons.mp hmem with he | hmem
      · cases congrArg Event.cmd he
      · exact ⟨status, headers, hmem⟩
  · rintro ⟨status, headers, hmem⟩
    exact ⟨status, headers, List.mem_append_right _ (List.mem_cons_of_mem _ hmem)⟩

omit [Runtime] in
/-- Neither the gate nor the request reads or writes a chunk. -/
theorem unchunked_lead (hlead : ∀ ev ∈ lead, IsGate ev.cmd) (o : Outgoing)
    (r : Except Err Upstream) :
    ∀ ev ∈ lead ++ [⟨.sessionRequest o, r⟩], IsUnchunked ev.cmd := by
  have hquiet : ∀ ev ∈ lead, IsUnchunked ev.cmd := fun ev hev => (hlead ev hev).quiet.1
  simpa [or_imp, forall_and, IsUnchunked] using hquiet

/-- A request that could not be sent passes nothing on. -/
theorem relays_of_unsent (hlead : ∀ ev ∈ lead, IsGate ev.cmd) (hcfg : ReadCfg lead cfg)
    (hbody : (⟨.readBody, .ok body⟩ : Event) ∈ lead) (e : Err) :
    Relays request (lead ++ [⟨.sessionRequest (outgoing request cfg body), .error e⟩])
      (answered (.error e)) := by
  obtain ⟨hread, hwritten⟩ := chunks_of_unchunked (unchunked_lead hlead _ _)
  constructor
  case sent =>
    refine sent_of_lead hlead hcfg hbody fun o r he => ?_
    exact Cmd.sessionRequest.inj (congrArg Event.cmd (List.mem_singleton.mp he))
  case inOrder => exact .inl (hread.trans hwritten.symm)
  case ended => exact fun _ => hread.trans hwritten.symm
  case streamed =>
    intro response hresponse hstreamed
    obtain ⟨⟨text, htext⟩, -⟩ := answered_error hresponse
    rw [htext] at hstreamed
    cases hstreamed
  case whole =>
    intro response body hresponse hbytes
    obtain ⟨⟨text, htext⟩, -⟩ := answered_error hresponse
    rw [htext] at hbytes
    cases hbytes
  case behindHeaders =>
    intro response text _ _ hout
    obtain ⟨status, headers, hmem⟩ := (isPrepared_lead_iff hlead _ _ []).mp hout
    cases hmem

omit [Runtime] in
/-- An answer without a text of the component's own is the one that was relayed. -/
theorem eq_ok_of_answered {out : Except Err Response} {response : Response}
    (h : answered out = .ok response) (hnot : ∀ text, response.payload ≠ .text text) :
    out = .ok response := by
  cases out with
  | ok response' => exact h
  | error e =>
    obtain ⟨⟨text, htext⟩, -⟩ := answered_error h
    exact absurd htext (hnot text)

/-- A request that was sent passes on what its upstream response passes on. -/
theorem relays_of_passes (hlead : ∀ ev ∈ lead, IsGate ev.cmd) (hcfg : ReadCfg lead cfg)
    (hbody : (⟨.readBody, .ok body⟩ : Event) ∈ lead) {upstream : Upstream} {rest : List Event}
    {out : Except Err Response} (hpasses : Passes upstream rest out) :
    Relays request (lead ++ ⟨.sessionRequest (outgoing request cfg body), .ok upstream⟩ :: rest)
      (answered out) := by
  have hfirst := unchunked_lead hlead (outgoing request cfg body) (.ok upstream)
  have hprepared := isPrepared_lead_iff hlead (outgoing request cfg body) (.ok upstream) rest
  have hsplit : lead ++ ⟨.sessionRequest (outgoing request cfg body), .ok upstream⟩ :: rest =
      (lead ++ [⟨.sessionRequest (outgoing request cfg body), .ok upstream⟩]) ++ (rest ++ []) := by
    rw [List.append_nil, List.append_assoc]
    rfl
  have hanswered : IsAnsweredBy
      (lead ++ ⟨.sessionRequest (outgoing request cfg body), .ok upstream⟩ :: rest) upstream :=
    ⟨_, List.mem_append_right _ List.mem_cons_self⟩
  constructor
  case sent =>
    refine sent_of_lead hlead hcfg hbody fun o r he => ?_
    rcases List.mem_cons.mp he with he | he
    · exact Cmd.sessionRequest.inj (congrArg Event.cmd he)
    · exact absurd rfl (hpasses.unsent _ he o)
  case inOrder =>
    rw [hsplit]
    exact hpasses.inOrder.between hfirst (by simp)
  case ended =>
    intro hend
    have hmem : (⟨.nextChunk, .ok none⟩ : Event) ∈ rest := by
      rcases List.mem_append.mp hend with hend | hend
      · exact (hlead _ hend).quiet.1.elim
      · rcases List.mem_cons.mp hend with he | hend
        · cases congrArg Event.cmd he
        · exact hend
    rw [hsplit]
    simp only [chunksRead_append, chunksWritten_append, (chunks_of_unchunked hfirst).1,
      (chunks_of_unchunked hfirst).2, hpasses.ended hmem, List.append_nil]
  case streamed =>
    intro response hresponse hstreamed
    have hout := eq_ok_of_answered hresponse fun text htext => by
      rw [htext] at hstreamed
      cases hstreamed
    obtain ⟨hstatus, hout, r, hlast⟩ := hpasses.streamed response hout hstreamed
    exact ⟨⟨upstream, hanswered, hstatus⟩, hprepared.mpr hout, r,
      getLast?_append_cons_append hlast⟩
  case whole =>
    intro response body' hresponse hbytes
    have hout := eq_ok_of_answered hresponse fun text htext => by
      rw [htext] at hbytes
      cases hbytes
    obtain ⟨hstatus, hlast, hnot⟩ := hpasses.whole response body' hout hbytes
    exact ⟨⟨upstream, hanswered, hstatus⟩, getLast?_append_cons_append hlast,
      mt hprepared.mp hnot⟩
  case behindHeaders =>
    intro response text hresponse htext hout
    cases out with
    | ok response' =>
      obtain rfl := Except.ok.inj hresponse
      exact absurd htext (hpasses.noText _ text rfl)
    | error e =>
      refine (answered_error hresponse).2.imp_right fun hclient => ?_
      obtain ⟨hlast, hreset⟩ := hpasses.behindHeaders e rfl (hprepared.mp hout) hclient
      exact ⟨e, getLast?_append_cons_append hlast, hclient, hreset⟩

end

/-- Every webhook request passes on what it reads. -/
theorem asyncHandleWebhook_relays {fuel : ℕ} {request : Request} {tr : List Event}
    {out : Except Err Response} (h : Runs (asyncHandleWebhook fuel request) tr out) :
    Relays request tr out := by
  rcases handled_of_runs h with ⟨hgate, hout⟩ | ⟨cfg, gate, body, rest, rfl, hgate, hrun⟩
  · exact relays_of_gate hgate hout
  · have hlead : ∀ ev ∈ ⟨.activeWebhookCfg, .ok (some cfg)⟩ :: gate ++ [⟨.readBody, .ok body⟩],
        IsGate ev.cmd := by
      simpa [IsGate, or_imp, forall_and] using hgate
    have hcfg := List.mem_append_left [⟨.readBody, .ok body⟩]
      (List.mem_cons_self (a := (⟨.activeWebhookCfg, .ok (some cfg)⟩ : Event)) (l := gate))
    have hbody := List.mem_append_right (⟨.activeWebhookCfg, .ok (some cfg)⟩ :: gate)
      (List.mem_singleton_self (⟨.readBody, .ok body⟩ : Event))
    rcases forwarded_of_runs hrun with ⟨e, rfl, rfl⟩ | ⟨upstream, rest, out, rfl, hpasses, rfl⟩
    · exact relays_of_unsent hlead hcfg hbody e
    · exact relays_of_passes hlead hcfg hbody hpasses

end

/-- A client that is gone before the second chunk of a stream reaches it. -/
def leavingClient (past : List Event) : (c : Cmd) → Except Err c.Ans
  | .activeWebhookCfg => .ok (some ⟨"hook", "http://127.0.0.1:9590/mcp", 1, none, webhookAuthNone,
      none, none, none⟩)
  | .readBody => .ok []
  | .sessionRequest _ => .ok ⟨200, [("Content-Type", "text/event-stream")]⟩
  | .prepare .. => .ok ()
  | .nextChunk => .ok (some [byte past.length])
  | .writeChunk _ =>
    if chunksWritten past = [] then .ok () else .error (.exn .clientConnectionReset [])
  | .writeEof => .error (.exn .clientConnectionReset [])
  | _ => .error .diverged

/-- The first chunk is written, the second is lost, and the stream is ended. -/
theorem asyncHandleWebhook_relays_leavingClient :
    letI := asciiRuntime
    ∃ tr out, Runs (asyncHandleWebhook 3 ping) tr out ∧
      (chunksRead tr = [[byte 4], [byte 6]] ∧ chunksWritten tr = [[byte 4]]) ∧
      Relays ping tr out := by
  let := asciiRuntime
  obtain ⟨tr, hrun, htr⟩ := runs_exec leavingClient (asyncHandleWebhook 3 ping) []
  rw [List.nil_append] at htr
  refine ⟨tr, _, hrun, ?_, asyncHandleWebhook_relays hrun⟩
  rw [← htr]
  constructor <;> decide +kernel

end EsphomeMcp.Webhook
