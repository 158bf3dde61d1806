import EsphomeMcp.Python.Lines
import EsphomeMcp.Python.Percent
import Mathlib.Data.List.TakeWhile

/-!
# The HTTP client's view of a URL

What `yarl.URL` makes of the text `aiohttp` is given: unsafe characters are dropped, the
path is requoted (percent-encoded characters that need no encoding are decoded once), and
its `.` and `..` segments are removed.

`staysInside` counts how deep a path has gone and says whether it ever climbs above its
start. A path that does not is resolved below any prefix; a path that does has lost the
prefix, since nothing later can bring back a name it does not contain.
-/

namespace Py

/-! ## Requoting -/

/-- The characters a path keeps unencoded. -/
def isPathSafe (c : CodePoint) : Bool :=
  isAlpha c || isDigit c || decide (c ∈ str "-._~!$'()*,+&=;@:/")

/-- `%XX` in upper case. -/
def pctByte (n : ℕ) : Str :=
  let upperHex (d : ℕ) : CodePoint :=
    if d % 16 < 10 then codePoint (0x30 + d % 16) else codePoint (0x41 + (d % 16 - 10))
  [ch '%', upperHex (n / 16), upperHex n]

/-- A character outside an escape; a surrogate is dropped. -/
def requoteChar (c : CodePoint) : Str :=
  if isPathSafe c then [c]
  else if isSurrogate c then []
  else (utf8Char c).flatMap fun b => pctByte b.val

/-- A decoded escape: `/` and `+` keep theirs, and so does what needs one. -/
def requoteByte (n : ℕ) : Str :=
  if n < 0x80 ∧ isPathSafe (codePoint n) ∧ codePoint n ≠ ch '/' ∧ codePoint n ≠ ch '+' then
    [codePoint n]
  else pctByte n

/-- `PATH_REQUOTER(path)`. -/
def requotePath : Str → Str
  | [] => []
  | [c] => requoteChar c
  | [c, d] => requoteChar c ++ requoteChar d
  | c :: a :: b :: s =>
    if c = ch '%' then
      match hexDigitVal a, hexDigitVal b with
      | some x, some y => requoteByte (16 * x + y) ++ requotePath s
      | _, _ => requoteChar c ++ requotePath (a :: b :: s)
    else requoteChar c ++ requotePath (a :: b :: s)

theorem requotePath_cons_of_safe {c : CodePoint} (hc : isPathSafe c = true) (s : Str) :
    requotePath (c :: s) = c :: requotePath s := by
  have hpct : c ≠ ch '%' := by
    rintro rfl
    exact absurd hc (by decide)
  have hchar : requoteChar c = [c] := by rw [requoteChar, if_pos hc]
  match s with
  | [] => simp only [requotePath, hchar]
  | [d] => simp only [requotePath, hchar, List.singleton_append]
  | d :: e :: s => simp only [requotePath, if_neg hpct, hchar, List.singleton_append]

/-- Characters that need no encoding pass through in front of anything. -/
theorem requotePath_append {e : Str} (he : ∀ c ∈ e, isPathSafe c = true) (s : Str) :
    requotePath (e ++ s) = e ++ requotePath s := by
  induction e with
  | nil => rfl
  | cons c e ih =>
    rw [List.cons_append, requotePath_cons_of_safe (he c (by simp)),
      ih fun x hx => he x (List.mem_cons_of_mem _ hx), List.cons_append]

/-! ## Dot segments -/

/-- One step of `normalize_path_segments`. -/
def dotStep (resolved : List Str) (seg : Str) : List Str :=
  if seg = str ".." then resolved.dropLast
  else if seg = str "." then resolved
  else resolved ++ [seg]

/-- A `.` or `..` segment. -/
def isDotSegment (seg : Str) : Bool := seg = str "." ∨ seg = str ".."

/-- `normalize_path_segments`: a final dot segment leaves an empty one behind. -/
def normalizeSegments (start segs : List Str) : List Str :=
  segs.foldl dotStep start ++
    if (segs.getLast?.map isDotSegment).getD false then [[]] else []

/-- The segments put together again. -/
def joinSegments (segs : List Str) : Str := [ch '/'].intercalate segs

/-- `normalize_path`. -/
def normalizeUrlPath : Str → Str
  | [] => joinSegments (normalizeSegments [] ([].splitOn (ch '/')))
  | c :: s =>
    if c = ch '/' then ch '/' :: joinSegments (normalizeSegments [] (s.splitOn (ch '/')))
    else joinSegments (normalizeSegments [] ((c :: s).splitOn (ch '/')))

/-- Reading the segments from the given depth never climbs above depth 0. -/
def staysInside : ℕ → List Str → Bool
  | _, [] => true
  | depth, seg :: segs =>
    if seg = str ".." then depth ≠ 0 && staysInside (depth - 1) segs
    else if seg = str "." then staysInside depth segs
    else staysInside (depth + 1) segs

/-- A path that stays inside is resolved below whatever it starts from. -/
theorem foldl_dotStep_of_staysInside (base below : List Str) {segs : List Str}
    (h : staysInside below.length segs = true) :
    segs.foldl dotStep (base ++ below) = base ++ segs.foldl dotStep below := by
  induction segs generalizing below with
  | nil => rfl
  | cons seg segs ih =>
    rw [staysInside] at h
    simp only [List.foldl_cons, dotStep]
    split_ifs at h ⊢ with hup hdot
    · rw [Bool.and_eq_true, decide_eq_true_eq] at h
      rw [List.dropLast_append_of_ne_nil (List.ne_nil_of_length_pos (by omega))]
      exact ih _ (by rw [List.length_dropLast]; exact h.2)
    · exact ih _ h
    · rw [List.append_assoc]
      exact ih _ (by simpa using h)

/-- A path that climbs above its start never names what it lost. -/
theorem not_mem_foldl_dotStep {name : Str} (below : List Str) {segs : List Str}
    (h : staysInside below.length segs = false) (hb : name ∉ below) (hs : name ∉ segs) :
    name ∉ segs.foldl dotStep (name :: below) := by
  -- once the name is gone, only segments of the path are ever pushed
  have hkeep (stack segs : List Str) (hstack : name ∉ stack) (hsegs : name ∉ segs) :
      name ∉ segs.foldl dotStep stack := by
    induction segs generalizing stack with
    | nil => exact hstack
    | cons seg segs ih =>
      rw [List.mem_cons, not_or] at hsegs
      rw [List.foldl_cons]
      refine ih _ ?_ hsegs.2
      unfold dotStep
      split_ifs
      · exact fun hm => hstack (List.mem_of_mem_dropLast hm)
      · exact hstack
      · simp [hstack, hsegs.1]
  induction segs generalizing below with
  | nil => simp [staysInside] at h
  | cons seg segs ih =>
    rw [List.mem_cons, not_or] at hs
    rw [staysInside] at h
    simp only [List.foldl_cons, dotStep]
    split_ifs at h ⊢ with hup hdot
    · cases below with
      | nil => exact hkeep [] segs (by simp) hs.2
      | cons x below =>
        rw [List.dropLast_cons_of_ne_nil (by simp)]
        refine ih _ (by simpa using h) (fun hm => hb (List.mem_of_mem_dropLast hm)) hs.2
    · exact ih _ h hb hs.2
    · rw [List.cons_append]
      exact ih _ (by simpa using h) (by simp [hb, hs.1]) hs.2

/-! ## Paths under a prefix -/

/-- A name that is a path segment as it stands: letters, digits, `-` and `_`. -/
def isPlainName (seg : Str) : Bool :=
  seg ≠ [] && seg.all fun c => isAlpha c || isDigit c || c == ch '-' || c == ch '_'

/-- `/a/b/c` for the segments `a`, `b` and `c`. -/
def pathOf (segs : List Str) : Str := segs.flatMap fun seg => ch '/' :: seg

theorem isPathSafe_of_plainName {seg : Str} (h : isPlainName seg = true) :
    ∀ c ∈ seg, isPathSafe c = true ∧ c ≠ ch '/' ∧ c ≠ ch '.' := by
  intro c hc
  rw [isPlainName, Bool.and_eq_true, List.all_eq_true] at h
  have hc' := h.2 c hc
  simp only [Bool.or_eq_true, beq_iff_eq] at hc'
  refine ⟨?_, ?_, ?_⟩
  · rw [isPathSafe]
    rcases hc' with ((hc' | hc') | rfl) | rfl
    · rw [hc', Bool.true_or, Bool.true_or]
    · rw [hc', Bool.or_true, Bool.true_or]
    · decide
    · decide
  · rintro rfl
    exact absurd hc' (by decide)
  · rintro rfl
    exact absurd hc' (by decide)

theorem not_isDotSegment_of_plainName {seg : Str} (h : isPlainName seg = true) :
    seg ≠ str "." ∧ seg ≠ str ".." := by
  constructor <;> rintro rfl <;> exact absurd h (by decide)

/-- The segments of a prefix come first. -/
theorem splitOn_pathOf {segs : List Str} (h : ∀ seg ∈ segs, ch '/' ∉ seg) (s : Str) :
    (pathOf segs ++ ch '/' :: s).splitOn (ch '/') = [] :: (segs ++ s.splitOn (ch '/')) := by
  induction segs with
  | nil =>
    rw [pathOf, List.flatMap_nil, List.nil_append, ← List.nil_append (ch '/' :: s),
      List.splitOn_append_cons_self_of_not_mem (by simp)]
    rfl
  | cons seg segs ih =>
    have hcons : pathOf (seg :: segs) ++ ch '/' :: s =
        ([] : Str) ++ ch '/' :: (seg ++ (pathOf segs ++ ch '/' :: s)) := by
      simp [pathOf]
    have hseg := h seg (by simp)
    have hih := ih fun x hx => h x (List.mem_cons_of_mem _ hx)
    rw [hcons, List.splitOn_append_cons_self_of_not_mem (by simp)]
    -- the rest starts with the separator the prefix or the path brings along
    cases segs with
    | nil =>
      rw [pathOf, List.flatMap_nil, List.nil_append,
        List.splitOn_append_cons_self_of_not_mem hseg]
      rfl
    | cons seg' segs =>
      have hcons' : seg ++ (pathOf (seg' :: segs) ++ ch '/' :: s) =
          seg ++ ch '/' :: (seg' ++ (pathOf segs ++ ch '/' :: s)) := by
        simp [pathOf]
      have hcons'' : pathOf (seg' :: segs) ++ ch '/' :: s =
          ([] : Str) ++ ch '/' :: (seg' ++ (pathOf segs ++ ch '/' :: s)) := by
        simp [pathOf]
      rw [hcons'', List.splitOn_append_cons_self_of_not_mem (by simp), List.cons.injEq] at hih
      rw [hcons', List.splitOn_append_cons_self_of_not_mem hseg, hih.2]
      rfl

/-- A path put together from its segments. -/
theorem slash_joinSegments {segs : List Str} {rest : List Str} (hr : rest ≠ []) :
    ch '/' :: joinSegments (segs ++ rest) = pathOf segs ++ ch '/' :: joinSegments rest := by
  induction segs with
  | nil => rfl
  | cons seg segs ih =>
    have hne : segs ++ rest ≠ [] := by simp [hr]
    rw [List.cons_append, joinSegments, List.intercalate_cons_of_ne_nil hne]
    rw [joinSegments] at ih
    simp only [List.append_assoc, List.singleton_append, ih]
    simp [pathOf]

/-- What the client makes of a path under a prefix. -/
theorem normalizeUrlPath_pathOf {segs : List Str} (h : ∀ seg ∈ segs, isPlainName seg = true)
    (s : Str) :
    normalizeUrlPath (pathOf segs ++ ch '/' :: s) =
      ch '/' :: joinSegments (normalizeSegments segs (s.splitOn (ch '/'))) := by
  have hslash : ∀ seg ∈ segs, ch '/' ∉ seg := fun seg hseg hm =>
    (isPathSafe_of_plainName (h seg hseg) _ hm).2.1 rfl
  have hsplit := splitOn_pathOf hslash s
  -- the text after the first slash has the segments of the prefix and of the path
  obtain ⟨t, ht⟩ : ∃ t, pathOf segs ++ ch '/' :: s = ch '/' :: t := by
    cases segs with
    | nil => exact ⟨s, rfl⟩
    | cons seg segs => exact ⟨seg ++ pathOf segs ++ ch '/' :: s, by simp [pathOf]⟩
  rw [ht, ← List.nil_append (ch '/' :: t), List.splitOn_append_cons_self_of_not_mem (by simp),
    List.cons.injEq] at hsplit
  have hpush : ∀ start : List Str, segs.foldl dotStep start = start ++ segs := by
    intro start
    clear hsplit ht hslash
    induction segs generalizing start with
    | nil => simp
    | cons seg segs ih =>
      obtain ⟨hdot, hup⟩ := not_isDotSegment_of_plainName (h seg (by simp))
      rw [List.foldl_cons, dotStep, if_neg hup, if_neg hdot,
        ih (fun x hx => h x (List.mem_cons_of_mem _ hx)), List.append_assoc]
      rfl
  have hlast : (segs ++ s.splitOn (ch '/')).getLast? = (s.splitOn (ch '/')).getLast? :=
    List.getLast?_append_of_ne_nil _ (List.splitOn_ne_nil _ _)
  rw [ht, normalizeUrlPath, if_pos rfl, hsplit.2, normalizeSegments, normalizeSegments,
    List.foldl_append, hpush, hlast, List.nil_append]

/-- The path lies under the prefix. -/
def LiesUnder (segs : List Str) (path : Str) : Prop :=
  startsWith path (pathOf segs ++ str "/") = true

instance (segs : List Str) (path : Str) : Decidable (LiesUnder segs path) :=
  inferInstanceAs (Decidable (_ = _))

/-- A path that stays inside lies under every prefix once the client has normalised it. -/
theorem liesUnder_of_staysInside {segs : List Str} (h : ∀ seg ∈ segs, isPlainName seg = true)
    {s : Str} (hs : staysInside 0 (s.splitOn (ch '/')) = true) :
    LiesUnder segs (normalizeUrlPath (pathOf segs ++ ch '/' :: s)) := by
  have hfold := foldl_dotStep_of_staysInside segs [] hs
  rw [List.append_nil] at hfold
  -- something always remains below the prefix: the last segment, or the empty one after a dot
  have hrest : ∃ rest, normalizeSegments segs (s.splitOn (ch '/')) = segs ++ rest ∧ rest ≠ [] := by
    refine ⟨_, by rw [normalizeSegments, hfold, List.append_assoc], ?_⟩
    by_cases hdot : ((s.splitOn (ch '/')).getLast?.map isDotSegment).getD false = true
    · simp [hdot]
    · obtain ⟨init, last, hl⟩ : ∃ init last, s.splitOn (ch '/') = init ++ [last] :=
        ⟨_, _, (List.dropLast_append_getLast (List.splitOn_ne_nil _ _)).symm⟩
      rw [hl, List.getLast?_concat] at hdot
      simp only [Option.map_some, Option.getD_some, isDotSegment, decide_eq_true_eq,
        not_or] at hdot
      rw [hl, List.foldl_append, List.foldl_cons, List.foldl_nil, dotStep, if_neg hdot.2,
        if_neg hdot.1]
      simp
  obtain ⟨rest, hnorm, hne⟩ := hrest
  rw [LiesUnder, normalizeUrlPath_pathOf h, hnorm, slash_joinSegments hne]
  exact startsWith_iff.mpr ⟨joinSegments rest, by simp [str, ch]⟩

/-- A path that climbs leaves a prefix it does not name. -/
theorem not_liesUnder_of_climbs {name : Str} (h : isPlainName name = true) {s : Str}
    (hs : staysInside 0 (s.splitOn (ch '/')) = false) (hname : name ∉ s.splitOn (ch '/')) :
    ¬LiesUnder [name] (normalizeUrlPath (pathOf [name] ++ ch '/' :: s)) := by
  have hmem := not_mem_foldl_dotStep [] hs (by simp) hname
  intro hunder
  rw [LiesUnder, normalizeUrlPath_pathOf (by simpa using h)] at hunder
  obtain ⟨t, ht⟩ := startsWith_iff.mp hunder
  have hne : name ≠ [] := by
    rintro rfl
    exact absurd h (by decide)
  have hslash : ch '/' ∉ name := fun hm => (isPathSafe_of_plainName h _ hm).2.1 rfl
  set segs := normalizeSegments [name] (s.splitOn (ch '/')) with hsegs
  have hnot : name ∉ segs := by
    rw [hsegs, normalizeSegments, List.mem_append, not_or]
    refine ⟨hmem, ?_⟩
    split_ifs
    · simpa using hne
    · simp
  -- no segment contains a slash, so the name would have to be one of them
  have hclean : ∀ seg ∈ segs, ch '/' ∉ seg := by
    have hstack : ∀ (stack segs : List Str), (∀ x ∈ stack, ch '/' ∉ x) → (∀ x ∈ segs, ch '/' ∉ x) →
        ∀ x ∈ segs.foldl dotStep stack, ch '/' ∉ x := by
      intro stack segs hst hse
      induction segs generalizing stack with
      | nil => exact hst
      | cons seg segs ih =>
        rw [List.foldl_cons]
        refine ih _ ?_ fun x hx => hse x (List.mem_cons_of_mem _ hx)
        intro x hx
        unfold dotStep at hx
        split_ifs at hx
        · exact hst x (List.mem_of_mem_dropLast hx)
        · exact hst x hx
        · rcases List.mem_append.mp hx with hx | hx
          · exact hst x hx
          · exact List.mem_singleton.mp hx ▸ hse seg (by simp)
    intro seg hseg
    rw [hsegs, normalizeSegments, List.mem_append] at hseg
    rcases hseg with hseg | hseg
    · exact hstack [name] _ (by simpa using hslash) (fun x hx => not_mem_of_mem_splitOn hx) seg hseg
    · split_ifs at hseg
      · obtain rfl := List.mem_singleton.mp hseg
        simp
      · simp at hseg
  have hjoin : joinSegments segs = name ++ ch '/' :: t := by
    have : ch '/' :: joinSegments segs = ch '/' :: (name ++ ch '/' :: t) := by
      rw [ht]
      simp [pathOf, str, ch]
    exact (List.cons.inj this).2
  by_cases hnil : segs = []
  · rw [hnil] at hjoin
    simp [joinSegments, List.intercalate_nil] at hjoin
  · have hsplit := List.splitOn_intercalate (ch '/') hclean hnil
    rw [joinSegments] at hjoin
    rw [hjoin, List.splitOn_append_cons_self_of_not_mem hslash] at hsplit
    exact hnot (hsplit ▸ List.mem_cons_self)

/-! ## URLs -/

/-- The text of a URL without what the parser drops: leading control characters and spaces,
and tabs and line breaks. -/
def cleanUrlText (url : Str) : Str :=
  (lstrip (fun c => c.val ≤ 0x20) url).filter fun c => !isUnsafeUrlChar c

/-- Ends the authority of a URL. -/
def endsAuthority (c : CodePoint) : Bool := c = ch '/' ∨ c = ch '?' ∨ c = ch '#'

/-- Ends the path of a URL. -/
def endsPath (c : CodePoint) : Bool := c = ch '?' ∨ c = ch '#'

/-- The part of a text in front of its first `?` or `#`. -/
def pathPart (s : Str) : Str := s.takeWhile fun c => !endsPath c

/-- A URL as the client requests it: scheme and authority as given, path normalised. -/
structure ClientUrl where
  origin : Str
  path : Str

/-- `yarl.URL(url)` of an absolute URL. -/
def clientUrl (url : Str) : Option ClientUrl :=
  match partition (ch ':') (cleanUrlText url) with
  | some (scheme, c :: d :: rest) =>
    if c = ch '/' ∧ d = ch '/' then
      let authority := rest.takeWhile fun c => !endsAuthority c
      let path := pathPart (rest.dropWhile fun c => !endsAuthority c)
      some ⟨scheme ++ str "://" ++ authority, normalizeUrlPath (requotePath path)⟩
    else none
  | _ => none

/-- The path of a URL as the client reads it: without unsafe characters, up to the query or
the fragment, and requoted. -/
def clientPath (s : Str) : Str := requotePath (pathPart (s.filter fun c => !isUnsafeUrlChar c))

theorem takeWhile_append_of_forall {p : CodePoint → Bool} {s t : Str} (h : ∀ c ∈ s, p c = true) :
    (s ++ t).takeWhile p = s ++ t.takeWhile p ∧ (s ++ t).dropWhile p = t.dropWhile p := by
  induction s with
  | nil => exact ⟨rfl, rfl⟩
  | cons c s ih =>
    obtain ⟨ht, hd⟩ := ih fun x hx => h x (List.mem_cons_of_mem _ hx)
    have hc := h c List.mem_cons_self
    simp [hc, ht, hd]

/-- A character that may stand in a path is printable and does not end the path. -/
theorem printable_of_isPathSafe {c : CodePoint} (h : isPathSafe c = true) :
    0x20 < c.val ∧ endsPath c = false := by
  rw [isPathSafe, Bool.or_eq_true, Bool.or_eq_true, isAlpha, isDigit, decide_eq_true_eq,
    decide_eq_true_eq, decide_eq_true_eq] at h
  rcases h with (h | h) | h
  · refine ⟨by omega, ?_⟩
    rw [endsPath, decide_eq_false_iff_not]
    rintro (rfl | rfl) <;> exact absurd h (by decide)
  · refine ⟨by omega, ?_⟩
    rw [endsPath, decide_eq_false_iff_not]
    rintro (rfl | rfl) <;> exact absurd h (by decide)
  · have hall : (str "-._~!$'()*,+&=;@:/").all
        (fun x => decide (0x20 < x.val) && !endsPath x) = true := rfl
    have hc := List.all_eq_true.mp hall c h
    simpa using hc

theorem isPathSafe_of_mem_pathOf {segs : List Str} (h : ∀ seg ∈ segs, isPlainName seg = true) :
    ∀ c ∈ pathOf segs, isPathSafe c = true := by
  intro c hc
  obtain ⟨seg, hseg, hc⟩ := List.mem_flatMap.mp hc
  rcases List.mem_cons.mp hc with rfl | hc
  · decide
  · exact (isPathSafe_of_plainName (h seg hseg) c hc).1

/-- Printable text loses nothing. -/
theorem filter_isUnsafeUrlChar {t : Str} (h : ∀ c ∈ t, 0x20 < c.val) :
    t.filter (fun c => !isUnsafeUrlChar c) = t := by
  refine List.filter_eq_self.mpr fun c hc => ?_
  have := h c hc
  rw [Bool.not_eq_true', isUnsafeUrlChar, decide_eq_false_iff_not]
  omega

theorem cleanUrlText_append {t : Str} (hne : t ≠ []) (h : ∀ c ∈ t, 0x20 < c.val) (s : Str) :
    cleanUrlText (t ++ s) = t ++ s.filter fun c => !isUnsafeUrlChar c := by
  have hstrip : lstrip (fun c => c.val ≤ 0x20) (t ++ s) = t ++ s := by
    obtain ⟨c, t, rfl⟩ := List.exists_cons_of_ne_nil hne
    have hc := h c List.mem_cons_self
    rw [lstrip, List.cons_append, List.dropWhile_cons, if_neg (by simpa using hc)]
  rw [cleanUrlText, hstrip, List.filter_append, filter_isUnsafeUrlChar h]

/-- A URL under a prefix of plain segments, as the client requests it. -/
theorem clientUrl_pathOf {scheme authority : Str} {segs : List Str} (hscheme : scheme ≠ [])
    (hs : ∀ c ∈ scheme, isAlpha c = true)
    (ha : ∀ c ∈ authority, 0x20 < c.val ∧ endsAuthority c = false) (hsegs : segs ≠ [])
    (h : ∀ seg ∈ segs, isPlainName seg = true) (s : Str) :
    clientUrl (scheme ++ str "://" ++ authority ++ pathOf segs ++ str "/" ++ s) =
      some ⟨scheme ++ str "://" ++ authority,
        normalizeUrlPath (pathOf segs ++ ch '/' :: clientPath s)⟩ := by
  have halpha : ∀ c ∈ scheme, 0x20 < c.val ∧ c ≠ ch ':' := by
    intro c hc
    have hc' := hs c hc
    rw [isAlpha, decide_eq_true_eq] at hc'
    refine ⟨by omega, ?_⟩
    rintro rfl
    exact absurd hc' (by decide)
  have hsafe := isPathSafe_of_mem_pathOf h
  -- nothing in front of the path is dropped
  have hprintable : ∀ c ∈ scheme ++ str "://" ++ authority ++ pathOf segs ++ str "/",
      0x20 < c.val := by
    intro c hc
    simp only [List.mem_append] at hc
    rcases hc with (((hc | hc) | hc) | hc) | hc
    · exact (halpha c hc).1
    · have hall : (str "://").all (fun x => decide (0x20 < x.val)) = true := rfl
      simpa using List.all_eq_true.mp hall c hc
    · exact (ha c hc).1
    · exact (printable_of_isPathSafe (hsafe c hc)).1
    · have hall : (str "/").all (fun x => decide (0x20 < x.val)) = true := rfl
      simpa using List.all_eq_true.mp hall c hc
  have hclean := cleanUrlText_append (by simp [hscheme]) hprintable s
  set q := s.filter fun c => !isUnsafeUrlChar c with hq
  have htext : scheme ++ str "://" ++ authority ++ pathOf segs ++ str "/" ++ q =
      scheme ++ ch ':' :: ch '/' :: ch '/' :: (authority ++ (pathOf segs ++ ch '/' :: q)) := by
    simp only [List.append_assoc]
    rfl
  obtain ⟨t, ht⟩ : ∃ t, pathOf segs = ch '/' :: t := by
    cases segs with
    | nil => exact absurd rfl hsegs
    | cons seg segs => exact ⟨seg ++ pathOf segs, rfl⟩
  have hauth := takeWhile_append_of_forall (p := fun c => !endsAuthority c) (s := authority)
    (t := pathOf segs ++ ch '/' :: q) (fun c hc => by simp [(ha c hc).2])
  have hstop : (pathOf segs ++ ch '/' :: q).takeWhile (fun c => !endsAuthority c) = [] ∧
      (pathOf segs ++ ch '/' :: q).dropWhile (fun c => !endsAuthority c) =
        pathOf segs ++ ch '/' :: q := by
    have hslash : endsAuthority (ch '/') = true := by decide
    rw [ht]
    simp [hslash]
  have hpart : pathPart (pathOf segs ++ ch '/' :: q) = pathOf segs ++ ch '/' :: pathPart q := by
    have hpath := takeWhile_append_of_forall (p := fun c => !endsPath c) (s := pathOf segs)
      (t := ch '/' :: q) (fun c hc => by simp [(printable_of_isPathSafe (hsafe c hc)).2])
    have hslash : endsPath (ch '/') = false := by decide
    rw [pathPart, hpath.1]
    simp [hslash, pathPart]
  rw [clientUrl, hclean, htext, partition_append_cons fun hm => (halpha _ hm).2 rfl]
  simp only [and_self, if_true, hauth, hstop, List.append_nil, hpart]
  rw [requotePath_append hsafe, requotePath_cons_of_safe (by decide)]
  rfl

end Py
