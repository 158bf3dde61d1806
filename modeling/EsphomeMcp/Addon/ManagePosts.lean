import EsphomeMcp.Addon.Manage

/-!
# The POSTs of `manage_esphome_addon`

The slug is formatted into an endpoint as free text. The endpoint's path is one of the
action or options templates with one segment in the slug's place exactly when the slug is
such a segment itself, or when a `?` or `#` in it cuts the endpoint right after one
(`addresses_iff`). Together with where the slug comes from this gives the condition under
which every POST addresses one ESPHome add-on (`postsOk_iff`).
-/

namespace EsphomeMcp.Addon

open Py Py.Prog

/-- The action and options templates, as the text before and after the slug. -/
def postTemplates : List (Str × Str) :=
  (str "/addons/", str "/options") :: actionEndpoints.map fun e => (e.before, e.after)

/-- One path segment: no slash, and nothing that ends a path. -/
def isSegment (s : Str) : Bool := s.all fun c => c ≠ ch '/' && !endsPath c

/-- The path of the endpoint built from `slug` is a template with `seg` in the slug's place. -/
def Addresses (before slug seg : Str) : Prop :=
  isSegment seg = true ∧
    (slug = seg ∨ ∃ after c rest, (before, after) ∈ postTemplates ∧ endsPath c = true ∧
      slug = seg ++ after ++ c :: rest)

/-! ## Templates -/

theorem postTemplates_spec {t : Str × Str} (h : t ∈ postTemplates) :
    (t.1 = str "/addons/" ∨ t.1 = str "/store/addons/") ∧
      (∃ name, t.2 = ch '/' :: name ∧ ch '/' ∉ name) ∧
      (∀ c ∈ t.1, endsPath c = false) ∧ ∀ c ∈ t.2, endsPath c = false := by
  have hall : postTemplates.all (fun t => (t.1 == str "/addons/" || t.1 == str "/store/addons/") &&
      t.2.head? == some (ch '/') && t.2.tail.all (fun c => c != ch '/') &&
      t.1.all (fun c => !endsPath c) && t.2.all fun c => !endsPath c) = true := rfl
  have ht := List.all_eq_true.mp hall t h
  simp only [Bool.and_eq_true, Bool.or_eq_true, beq_iff_eq, List.all_eq_true, Bool.not_eq_true',
    bne_iff_ne, ne_eq] at ht
  obtain ⟨⟨⟨⟨hbefore, hhead⟩, hname⟩, h1⟩, h2⟩ := ht
  refine ⟨hbefore, ?_, h1, h2⟩
  obtain ⟨before, after⟩ := t
  cases after with
  | nil => simp at hhead
  | cons c name =>
    obtain rfl : c = ch '/' := by simpa using hhead
    exact ⟨name, rfl, fun hm => hname _ hm rfl⟩

/-- The segments of a text behind one of the two prefixes. -/
theorem splitOn_before (s : Str) :
    (str "/addons/" ++ s).splitOn (ch '/') = [] :: str "addons" :: s.splitOn (ch '/') ∧
    (str "/store/addons/" ++ s).splitOn (ch '/') =
      [] :: str "store" :: str "addons" :: s.splitOn (ch '/') := by
  have h1 : str "/addons/" ++ s = str "/addons" ++ ch '/' :: s := by
    rw [← List.singleton_append, ← List.append_assoc]
    rfl
  have h2 : str "/store/addons/" ++ s = str "/store/addons" ++ ch '/' :: s := by
    rw [← List.singleton_append, ← List.append_assoc]
    rfl
  rw [h1, h2, List.splitOn_append_cons_self, List.splitOn_append_cons_self]
  exact ⟨rfl, rfl⟩

/-- Texts behind two prefixes agree only if prefix and text do. -/
theorem before_inj {b b' : Str} (hb : b = str "/addons/" ∨ b = str "/store/addons/")
    (hb' : b' = str "/addons/" ∨ b' = str "/store/addons/") {s s' : Str} (h : b ++ s = b' ++ s') :
    b = b' ∧ s = s' := by
  have hsplit := congrArg (List.splitOn (ch '/')) h
  have hne : str "addons" ≠ str "store" := by decide
  rcases hb with rfl | rfl <;> rcases hb' with rfl | rfl
  · exact ⟨rfl, List.append_cancel_left h⟩
  · rw [(splitOn_before s).1, (splitOn_before s').2] at hsplit
    simp only [List.cons.injEq, true_and] at hsplit
    exact absurd hsplit.1 hne
  · rw [(splitOn_before s).2, (splitOn_before s').1] at hsplit
    simp only [List.cons.injEq, true_and] at hsplit
    exact absurd hsplit.1.symm hne
  · exact ⟨rfl, List.append_cancel_left h⟩

theorem template_ne_session {t : Str × Str} (ht : t ∈ postTemplates) (slug : Str) :
    t.1 ++ slug ++ t.2 ≠ str "/ingress/session" := by
  intro h
  have hsplit := congrArg (List.splitOn (ch '/')) h
  have hsession : (str "/ingress/session").splitOn (ch '/') = [[], str "ingress", str "session"] :=
    rfl
  rw [hsession, List.append_assoc] at hsplit
  rcases (postTemplates_spec ht).1 with hb | hb
  · rw [hb, (splitOn_before _).1] at hsplit
    simp only [List.cons.injEq, true_and] at hsplit
    exact absurd hsplit.1 (by decide)
  · rw [hb, (splitOn_before _).2] at hsplit
    simp only [List.cons.injEq, true_and] at hsplit
    exact absurd hsplit.1 (by decide)

theorem isSegment_iff {s : Str} :
    isSegment s = true ↔ ch '/' ∉ s ∧ ∀ c ∈ s, endsPath c = false := by
  simp only [isSegment, List.all_eq_true, Bool.and_eq_true, decide_eq_true_eq, ne_eq,
    Bool.not_eq_true']
  exact ⟨fun h => ⟨fun hm => (h _ hm).1 rfl, fun c hc => (h c hc).2⟩,
    fun h c hc => ⟨fun he => h.1 (he ▸ hc), h.2 c hc⟩⟩

/-- With one segment in the middle, a template text determines the segment. -/
theorem middle_inj {slug seg after after' : Str} {name name' : Str}
    (hafter : after = ch '/' :: name) (hname : ch '/' ∉ name)
    (hafter' : after' = ch '/' :: name') (hname' : ch '/' ∉ name') (hseg : ch '/' ∉ seg)
    (h : slug ++ after = seg ++ after') : slug = seg ∧ after = after' := by
  subst hafter hafter'
  have hsplit := congrArg (List.splitOn (ch '/')) h
  rw [List.splitOn_append_cons_self, List.splitOn_append_cons_self,
    List.splitOn_eq_singleton hseg, List.splitOn_eq_singleton hname,
    List.splitOn_eq_singleton hname'] at hsplit
  obtain ⟨hs, hn⟩ := List.append_inj' hsplit rfl
  have hslug : slug = seg := by
    rw [← @List.intercalate_splitOn _ slug _ _ (ch '/'), hs, List.intercalate_singleton]
  subst hslug
  exact ⟨rfl, List.append_cancel_left h⟩

theorem pathPart_of_forall {s : Str} (h : ∀ c ∈ s, endsPath c = false) (t : Str) :
    pathPart (s ++ t) = s ++ pathPart t :=
  (takeWhile_append_of_forall fun c hc => by simp [h c hc]).1

/-- A text is its path, or its path with what ends it and the rest. -/
theorem pathPart_cases (s : Str) :
    (pathPart s = s ∧ ∀ c ∈ s, endsPath c = false) ∨
    ∃ c rest, s = pathPart s ++ c :: rest ∧ endsPath c = true := by
  have hsplit : pathPart s ++ s.dropWhile (fun c => !endsPath c) = s := List.takeWhile_append_dropWhile
  cases hd : s.dropWhile fun c => !endsPath c with
  | nil =>
    rw [hd, List.append_nil] at hsplit
    refine .inl ⟨hsplit, fun c hc => ?_⟩
    have := List.dropWhile_eq_nil_iff.mp hd c hc
    simpa using this
  | cons c rest =>
    refine .inr ⟨c, rest, by rw [← hd, hsplit], ?_⟩
    have := List.head_dropWhile_not (fun c => !endsPath c) (l := s) (by simp [hd])
    simpa [hd] using this

/-- Which segment an endpoint built from a slug addresses. -/
theorem addresses_iff {t : Str × Str} (ht : t ∈ postTemplates) (slug seg : Str) :
    (isSegment seg = true ∧ ∃ t' ∈ postTemplates,
      pathPart (t.1 ++ slug ++ t.2) = t'.1 ++ seg ++ t'.2) ↔ Addresses t.1 slug seg := by
  obtain ⟨hbefore, ⟨name, hafter, hname⟩, hb, ha⟩ := postTemplates_spec ht
  have hpath : pathPart (t.1 ++ slug ++ t.2) = t.1 ++ pathPart (slug ++ t.2) := by
    rw [List.append_assoc, pathPart_of_forall hb]
  rw [Addresses, hpath]
  refine and_congr_right fun hseg => ?_
  obtain ⟨hslash, hclean⟩ := isSegment_iff.mp hseg
  rcases pathPart_cases slug with ⟨-, hall⟩ | ⟨c, rest, hs, hc⟩
  · have hwhole : pathPart (slug ++ t.2) = slug ++ t.2 := by
      rw [pathPart_of_forall hall]
      have h2 := pathPart_of_forall ha []
      rw [List.append_nil] at h2
      rw [h2]
      simp [pathPart]
    rw [hwhole]
    constructor
    · rintro ⟨t', ht', he⟩
      obtain ⟨hbefore', ⟨name', hafter', hname'⟩, -, -⟩ := postTemplates_spec ht'
      rw [List.append_assoc] at he
      obtain ⟨-, he⟩ := before_inj hbefore hbefore' he
      exact .inl (middle_inj hafter hname hafter' hname' hslash he).1
    · rintro (rfl | ⟨after, c, rest, -, hc, rfl⟩)
      · exact ⟨t, ht, by rw [List.append_assoc]⟩
      · -- a slug that ends its path is not all path
        have := hall c (by simp)
        simp [hc] at this
  · have hcut : pathPart (slug ++ t.2) = pathPart slug := by
      have hclean' : ∀ x ∈ pathPart slug, endsPath x = false := fun x hx => by
        simpa using List.mem_takeWhile_imp hx
      have hstop (u : Str) : pathPart (c :: u) = [] := by simp [pathPart, hc]
      have h1 := pathPart_of_forall hclean' (c :: (rest ++ t.2))
      rw [hstop, List.append_nil] at h1
      rw [← h1]
      conv_lhs => rw [hs]
      rw [List.append_assoc, List.cons_append]
    rw [hcut]
    constructor
    · rintro ⟨t', ht', he⟩
      obtain ⟨hbefore', -, -, -⟩ := postTemplates_spec ht'
      rw [List.append_assoc] at he
      obtain ⟨hbb, he⟩ := before_inj hbefore hbefore' he
      refine .inr ⟨t'.2, c, rest, hbb ▸ ht', hc, ?_⟩
      rw [← he]
      exact hs
    · rintro (rfl | ⟨after, c', rest', hmem, hc', he⟩)
      · have := hclean c (hs ▸ by simp)
        simp [hc] at this
      · refine ⟨(t.1, after), hmem, ?_⟩
        obtain ⟨-, -, -, hafter'⟩ := postTemplates_spec hmem
        have hclean' : ∀ x ∈ seg ++ after, endsPath x = false := fun x hx =>
          (List.mem_append.mp hx).elim (hclean x) (hafter' x)
        have h1 := pathPart_of_forall hclean' (c' :: rest')
        rw [he, h1]
        simp [pathPart, hc']

/-! ## Where the slug comes from -/

/-- More than one of the action, configuration and path arguments is given. -/
def ManageArgs.IsCombined (args : ManageArgs) : Prop :=
  (args.action.isSome = true ∧ args.path.isSome = true) ∨
  (args.action.isSome = true ∧ buildConfigPayload args.config ≠ []) ∨
  (buildConfigPayload args.config ≠ [] ∧ args.path.isSome = true)

theorem givenSlug_eq_some {args : ManageArgs} {slug : Str} (h : args.givenSlug = some slug) :
    ∃ c s, args.slug = some (c :: s) ∧ slug = c :: s := by
  rw [ManageArgs.givenSlug] at h
  split at h
  · exact ⟨_, _, ‹_›, (Option.some.inj h).symm⟩
  · cases h

theorem givenSlug_eq_none {args : ManageArgs} (h : args.givenSlug = none) :
    args.slug.getD [] = [] := by
  rw [ManageArgs.givenSlug] at h
  split at h
  · cases h
  · rename_i hne
    cases hs : args.slug with
    | none => rfl
    | some s =>
      cases s with
      | nil => rfl
      | cons c s => exact absurd hs (hne c s)

theorem infoEndpoint_injective : Function.Injective infoEndpoint := fun s t h => by
  rw [infoEndpoint, infoEndpoint, List.append_assoc, List.append_assoc] at h
  exact List.append_cancel_right (List.append_cancel_left h)

theorem infoEndpoint_ne (s : Str) : infoEndpoint s ≠ str "/addons" := by
  intro h
  have := congrArg List.length h
  have h1 : (str "/addons/").length = 8 := rfl
  have h2 : (str "/info").length = 5 := rfl
  have h3 : (str "/addons").length = 7 := rfl
  rw [infoEndpoint, List.length_append, List.length_append, h1, h2, h3] at this
  omega

theorem metadata_append (tr tr' : List Exchange) :
    metadata (tr ++ tr') = metadata tr ++ metadata tr' := List.filterMap_append

theorem addonPosts_append (tr tr' : List Exchange) :
    addonPosts (tr ++ tr') = addonPosts tr ++ addonPosts tr' := List.filterMap_append

section

variable [Runtime]

/-- The text in front of the slug in the endpoint the arguments ask for. -/
def ManageArgs.before (args : ManageArgs) : Str :=
  match args.action with
  | none => "/addons/"
  | some action => ((findAction (actionKey (actionKey action))).map ActionEndpoint.before).getD []

/-- A metadata record that looks like ESPHome carries the slug: add-on info, under its own
slug or the one it was asked for, or an entry of the add-on list. -/
def NamesEsphome (records : List (Str × Json)) (seg : Str) : Prop :=
  (∃ asked a, (infoEndpoint asked, Json.obj a) ∈ records ∧ looksLikeEsphomeAddon a = true ∧
    seg = strOf ((dictGet a "slug").orElse (.str asked))) ∨
  (∃ payload addons m, (str "/addons", payload) ∈ records ∧ payload.get "addons" = .arr addons ∧
    Json.obj m ∈ addons ∧ looksLikeEsphomeAddon m = true ∧ dictHas m "slug" = true ∧
    seg = strOf (dictGet m "slug"))

/-- What the arguments and the metadata make of a request: the add-on record and the slug. -/
inductive Target (args : ManageArgs) : List (Str × Json) → Dict → Str → Prop
  | install (slug : Str) (hi : args.installSlug = some slug)
      (hc : contains "esphome" (lower slug) = true) : Target args [] [] slug
  | given (slug : Str) (a : Dict) (hi : args.installSlug = none) (hg : args.givenSlug = some slug)
      (hl : looksLikeEsphomeAddon a = true) :
      Target args [(infoEndpoint slug, .obj a)] a (resolvedSlug args a)
  | auto (payload : Json) (addons : List Json) (m a : Dict) (hi : args.installSlug = none)
      (hg : args.givenSlug = none) (hp : payload.get "addons" = .arr addons)
      (hm : esphomeMatches addons = .ok [.obj m]) (hs : dictHas m "slug" = true) :
      Target args [(str "/addons", payload), (infoEndpoint (strOf (dictGet m "slug")), .obj a)] a
        (resolvedSlug args a)

theorem looksLike_obj {a : Dict} : looksLike (.obj a) = .ok true ↔ looksLikeEsphomeAddon a = true := by
  simp [looksLike]

/-! ## One POST -/

theorem addonPost?_get (endpoint : Str) (data : Json) (timeout : Option ℤ) (r : Except Err Json) :
    addonPost? (supervisorExchange endpoint "GET" data timeout r) = none := by
  have hne : str "get" ≠ str "post" := by decide
  rw [supervisorExchange, lower_GET, addonPost?, if_neg fun h => hne h.1]

theorem metadata?_get (endpoint : Str) (data : Json) (timeout : Option ℤ) (j : Json) :
    metadata? (supervisorExchange endpoint "GET" data timeout (.ok j)) =
      some (endpoint, normalizeSupervisorPayload j) := by
  rw [supervisorExchange, lower_GET, metadata?, if_pos rfl]

theorem addonPost?_post (endpoint : Str) (data : Json) (timeout : Option ℤ) (r : Except Err Json) :
    addonPost? (supervisorExchange endpoint "POST" data timeout r) =
      if endpoint ≠ str "/ingress/session" then some endpoint else none := by
  rw [supervisorExchange, lower_POST, addonPost?]
  simp

theorem metadata?_post (endpoint : Str) (data : Json) (timeout : Option ℤ) (r : Except Err Json) :
    metadata? (supervisorExchange endpoint "POST" data timeout r) = none := by
  have hne : str "post" ≠ str "get" := by decide
  cases r with
  | ok j => rw [supervisorExchange, lower_POST, metadata?, if_neg hne]
  | error e => rfl

theorem infoExchange_posts (slug : Str) (j : Json) :
    addonPosts (infoExchange slug j) = [] ∧
      metadata (infoExchange slug j) = [(infoEndpoint slug, normalizeSupervisorPayload j)] := by
  rw [addonPosts, metadata]
  simp only [List.filterMap_cons, addonPost?_get, metadata?_get]
  exact ⟨rfl, rfl⟩

theorem listExchange_posts (j : Json) :
    addonPosts (listExchange j) = [] ∧
      metadata (listExchange j) = [(str "/addons", normalizeSupervisorPayload j)] := by
  rw [addonPosts, metadata]
  simp only [List.filterMap_cons, addonPost?_get, metadata?_get]
  exact ⟨rfl, rfl⟩

/-- A POST is the only POST of its call, and no metadata. -/
theorem runs_supervisorApiCall_post {endpoint : Str} {data : Json} {timeout : Option ℤ}
    {tr : List Exchange} {out : Except Err Dict}
    (h : Runs (supervisorApiCall endpoint "POST" data timeout) tr out) :
    metadata tr = [] ∧ (addonPosts tr = [] ∨ addonPosts tr = [endpoint]) := by
  have hcomponent (r : Except Err Component) :
      addonPost? ⟨.component, r⟩ = none ∧ metadata? ⟨.component, r⟩ = none := ⟨rfl, rfl⟩
  rw [metadata, addonPosts]
  rcases runs_supervisorApiCall h with ⟨r, rfl, -⟩ | ⟨e, rfl, -⟩ | ⟨j, rfl, -⟩
  · exact ⟨rfl, .inl rfl⟩
  all_goals
    simp only [List.filterMap_cons, addonPost?_post, metadata?_post, (hcomponent _).1, (hcomponent _).2,
      List.filterMap_nil]
    split_ifs
    · exact ⟨trivial, .inr rfl⟩
    · exact ⟨trivial, .inl rfl⟩

/-- The arguments are of one kind and ask for a POST that can be built from the record. -/
def ManageArgs.Acts (args : ManageArgs) (addon : Dict) : Prop :=
  ¬args.IsCombined ∧
    match args.action with
    | some action => (findAction (actionKey (actionKey action))).isSome = true
    | none => buildConfigPayload args.config ≠ [] ∧
        ∃ p, submittedConfig addon (buildConfigPayload args.config) = .ok p

/-- The one POST of `tr` is the template text for `slug`. -/
def PostsFor (args : ManageArgs) (slug : Str) (tr : List Exchange) : Prop :=
  ∃ after, (args.before, after) ∈ postTemplates ∧ addonPosts tr = [args.before ++ slug ++ after]

/-- A run of one POST for a template of the arguments. -/
theorem postsFor_of_post {args : ManageArgs} {before after slug : Str} {data : Json}
    {timeout : Option ℤ} {tr : List Exchange} {out : Except Err Dict} (hb : args.before = before)
    (hmem : (before, after) ∈ postTemplates)
    (h : Runs (supervisorApiCall (before ++ slug ++ after) "POST" data timeout) tr out) :
    metadata tr = [] ∧ (addonPosts tr = [] ∨ PostsFor args slug tr) := by
  obtain ⟨hm, hp⟩ := runs_supervisorApiCall_post h
  rw [PostsFor, hb]
  exact ⟨hm, hp.imp_right fun hp => ⟨after, hmem, hp⟩⟩

theorem before_of_action {args : ManageArgs} {action : Str} {e : ActionEndpoint}
    (ha : args.action = some action) (he : findAction (actionKey (actionKey action)) = some e) :
    args.before = e.before ∧ (e.before, e.after) ∈ postTemplates :=
  ⟨by simp [ManageArgs.before, ha, he],
    List.mem_cons_of_mem _ (List.mem_map.mpr ⟨e, List.mem_of_find?_eq_some he, rfl⟩)⟩

theorem before_of_config {args : ManageArgs} (ha : args.action = none) :
    args.before = str "/addons/" ∧ (str "/addons/", str "/options") ∈ postTemplates :=
  ⟨by rw [ManageArgs.before, ha], List.mem_cons_self⟩

theorem runs_executeAction {args : ManageArgs} {action slug : Str} {tr : List Exchange}
    {out : Except Err Dict} (ha : args.action = some action)
    (h : Runs (executeAction slug (actionKey action)) tr out) :
    metadata tr = [] ∧ (addonPosts tr = [] ∨
      (findAction (actionKey (actionKey action))).isSome = true ∧ PostsFor args slug tr) := by
  unfold executeAction at h
  cases he : findAction (actionKey (actionKey action)) with
  | none =>
    simp only [he] at h
    obtain ⟨rfl, -⟩ := runs_ret_iff.mp h
    exact ⟨rfl, .inl rfl⟩
  | some e =>
    simp only [he] at h
    obtain ⟨hbefore, hmem⟩ := before_of_action ha he
    rcases runs_bind_iff.mp h with ⟨r, tr₁, tr₂, h₁, h₂, rfl⟩ | ⟨err, h₁, -⟩
    · obtain rfl : tr₂ = [] := by
        split_ifs at h₂ <;> exact (runs_ret_iff.mp h₂).1
      rw [List.append_nil]
      exact (postsFor_of_post hbefore hmem h₁).imp_right fun hp => hp.imp_right fun hp => ⟨rfl, hp⟩
    · exact (postsFor_of_post hbefore hmem h₁).imp_right fun hp => hp.imp_right fun hp => ⟨rfl, hp⟩

theorem runs_executeConfigUpdate {args : ManageArgs} {slug : Str} {addon config : Dict}
    {tr : List Exchange} {out : Except Err Dict} (ha : args.action = none)
    (h : Runs (executeConfigUpdate slug addon config) tr out) :
    metadata tr = [] ∧ (addonPosts tr = [] ∨
      (∃ p, submittedConfig addon config = .ok p) ∧ PostsFor args slug tr) := by
  obtain ⟨hbefore, hmem⟩ := before_of_config ha
  unfold executeConfigUpdate optionsEndpoint at h
  rcases runs_bind_iff.mp h with ⟨p, tr₁, tr₂, h₁, h₂, rfl⟩ | ⟨err, h₁, -⟩
  · obtain ⟨rfl, hp⟩ := runs_ofExcept_iff.mp h₁
    rw [List.nil_append]
    rcases runs_bind_iff.mp h₂ with ⟨r, tr₃, tr₄, h₃, h₄, rfl⟩ | ⟨err, h₃, -⟩
    · obtain rfl : tr₄ = [] := by
        split_ifs at h₄ <;> exact (runs_ret_iff.mp h₄).1
      rw [List.append_nil]
      exact (postsFor_of_post hbefore hmem h₃).imp_right fun h => h.imp_right fun h =>
        ⟨⟨p, hp.symm⟩, h⟩
    · exact (postsFor_of_post hbefore hmem h₃).imp_right fun h => h.imp_right fun h =>
        ⟨⟨p, hp.symm⟩, h⟩
  · obtain ⟨rfl, -⟩ := runs_ofExcept_iff.mp h₁
    exact ⟨rfl, .inl rfl⟩

theorem acts_of_action {args : ManageArgs} {addon : Dict} {action : Str}
    (ha : args.action = some action)
    (hfind : (findAction (actionKey (actionKey action))).isSome = true)
    (hc : ¬(args.path.isSome = true ∨ buildConfigPayload args.config ≠ [])) : args.Acts addon := by
  refine ⟨?_, by rw [ha]; exact hfind⟩
  rintro (⟨-, h⟩ | ⟨-, h⟩ | ⟨-, h⟩)
  · exact hc (.inl h)
  · exact hc (.inr h)
  · exact hc (.inl h)

theorem acts_of_config {args : ManageArgs} {addon : Dict} (ha : args.action = none)
    (hconfig : buildConfigPayload args.config ≠ []) (hpath : ¬args.path.isSome = true)
    (hsub : ∃ p, submittedConfig addon (buildConfigPayload args.config) = .ok p) :
    args.Acts addon := by
  refine ⟨?_, by rw [ha]; exact ⟨hconfig, hsub⟩⟩
  rintro (⟨h, -⟩ | ⟨h, -⟩ | ⟨-, h⟩)
  · simp [ha] at h
  · simp [ha] at h
  · exact hpath h

/-! ## Every run -/

/-- The record that is resolved and the slug that is made of it, with the metadata read for them. -/
theorem target_of_runs_resolve {args : ManageArgs} {tr : List Exchange} {resolved : Dict}
    (hi : args.installSlug = none) (h : Runs (resolveEsphomeAddon args.slug) tr (.ok resolved))
    (hr : isSuccess resolved = true) : ∃ a, resolved = success [("addon", .obj a)] ∧
      Target args (metadata tr) a (resolvedSlug args a) := by
  cases hg : args.givenSlug with
  | some slug =>
    obtain ⟨c, s, hslug, hs⟩ := givenSlug_eq_some hg
    rw [hslug] at h
    obtain ⟨j, a, rfl, hj, hl, hres⟩ := runs_resolveEsphomeAddon_given h hr
    refine ⟨a, hres, ?_⟩
    rw [(infoExchange_posts _ j).2, hj]
    exact .given (c :: s) a hi (hg.trans (congrArg some hs)) hl
  | none =>
    obtain ⟨jl, addons, m, j, a, rfl, hl, hm, hhas, hj, hres⟩ :=
      runs_resolveEsphomeAddon_auto (givenSlug_eq_none hg) h hr
    refine ⟨a, hres, ?_⟩
    rw [metadata_append, (listExchange_posts jl).2, (infoExchange_posts _ j).2, hj]
    exact .auto _ addons m a hi hg hl hm hhas

/-- What a run's POSTs are: at most one, for the slug the arguments and the metadata name,
and only when the arguments are of one kind. -/
theorem runs_manageEsphomeAddon {fuel : ℕ} {hass : Hass} {args : ManageArgs} {tr : List Exchange}
    {out : Except Err Dict} (h : Runs (manageEsphomeAddon fuel hass args) tr out) :
    addonPosts tr = [] ∨
      ∃ a slug, Target args (metadata tr) a slug ∧ args.Acts a ∧ PostsFor args slug tr := by
  unfold manageEsphomeAddon at h
  cases hi : args.installSlug with
  | some slug =>
    simp only [hi] at h
    have hkey : args.action.map actionKey = some (str "install") := by
      rw [ManageArgs.installSlug] at hi
      split_ifs at hi with hk
      exact hk
    obtain ⟨action, ha, hkey⟩ := Option.map_eq_some_iff.mp hkey
    split_ifs at h with hcomb hlook
    · exact .inl (by rw [(runs_ret_iff.mp h).1]; rfl)
    · obtain ⟨hm, hp⟩ := runs_executeAction ha (by rw [hkey]; exact h)
      refine hp.imp_right fun ⟨hfind, hp⟩ => ⟨[], slug, hm ▸ .install slug hi hlook, ?_, hp⟩
      exact acts_of_action ha hfind hcomb
    · exact .inl (by rw [(runs_ret_iff.mp h).1]; rfl)
  | none =>
    simp only [hi] at h
    have hread : ∀ {tr out}, Runs (resolveEsphomeAddon args.slug) tr out → addonPosts tr = [] :=
      addonPosts_of_issues (Issues.mono (fun _ => isHarmless_of_isRead)
        (issues_resolveEsphomeAddon args.slug))
    rcases runs_bind_iff.mp h with ⟨resolved, tr₁, tr₂, h₁, h₂, rfl⟩ | ⟨e, h₁, -⟩
    · by_cases hr : isSuccess resolved = true
      · obtain ⟨a, rfl, htarget⟩ := target_of_runs_resolve hi h₁ hr
        simp only [isSuccess_success, Bool.not_true, Bool.false_eq_true, if_false,
          dictGet_success_cons "addon" _ _ (by decide)] at h₂
        -- whatever follows adds at most one POST and no metadata
        have hdone : ∀ {tr₂}, metadata tr₂ = [] → PostsFor args (resolvedSlug args a) tr₂ →
            args.Acts a → ∃ a slug, Target args (metadata (tr₁ ++ tr₂)) a slug ∧ args.Acts a ∧
              PostsFor args slug (tr₁ ++ tr₂) := by
          intro tr₂ hm hp hc
          refine ⟨a, resolvedSlug args a, ?_, hc, ?_⟩
          · rw [metadata_append, hm, List.append_nil]
            exact htarget
          · rw [PostsFor, addonPosts_append, hread h₁, List.nil_append]
            exact hp
        have hnone : ∀ {tr₂}, addonPosts tr₂ = [] → addonPosts (tr₁ ++ tr₂) = [] := by
          intro tr₂ hp
          rw [addonPosts_append, hread h₁, hp]
          rfl
        cases ha : args.action with
        | some action =>
          simp only [ha, Option.map_some] at h₂
          split_ifs at h₂ with hcomb
          · obtain ⟨rfl, -⟩ := runs_ret_iff.mp h₂
            exact .inl (hnone rfl)
          · obtain ⟨hm, hp⟩ := runs_executeAction ha h₂
            rcases hp with hp | ⟨hfind, hp⟩
            · exact .inl (hnone hp)
            · exact .inr (hdone hm hp (acts_of_action ha hfind hcomb))
        | none =>
          simp only [ha, Option.map_none] at h₂
          split_ifs at h₂ with hconfig hpath
          · obtain ⟨rfl, -⟩ := runs_ret_iff.mp h₂
            exact .inl (hnone rfl)
          · obtain ⟨hm, hp⟩ := runs_executeConfigUpdate ha h₂
            rcases hp with hp | ⟨hsub, hp⟩
            · exact .inl (hnone hp)
            · exact .inr (hdone hm hp (acts_of_config ha hconfig hpath hsub))
          · exact .inl (hnone (addonPosts_of_issues (issues_manageCall _ _ _ _ _) h₂))
      · simp only [hr, Bool.not_false, if_true] at h₂
        obtain ⟨rfl, -⟩ := runs_ret_iff.mp h₂
        rw [List.append_nil]
        exact .inl (hread h₁)
    · exact .inl (hread h₁)

/-! ## A run that posts -/

/-- The exchanges of a POST the Supervisor accepts. -/
abbrev postExchange (endpoint : Str) (data : Json) (timeout : Option ℤ) : List Exchange :=
  [⟨.component, .ok .loaded⟩, supervisorExchange endpoint "POST" data timeout (.ok .null)]

theorem postExchange_posts {args : ManageArgs} {before after : Str} (hb : args.before = before)
    (hmem : (before, after) ∈ postTemplates) (slug : Str) (data : Json) (timeout : Option ℤ) :
    metadata (postExchange (before ++ slug ++ after) data timeout) = [] ∧
      PostsFor args slug (postExchange (before ++ slug ++ after) data timeout) := by
  refine ⟨?_, after, hb ▸ hmem, ?_⟩
  · rw [metadata, List.filterMap_cons, List.filterMap_cons, metadata?_post]
    rfl
  · rw [addonPosts, List.filterMap_cons, List.filterMap_cons, addonPost?_post,
      if_pos (template_ne_session hmem slug), hb]
    rfl

theorem exists_runs_executeAction {args : ManageArgs} {action : Str} (slug : Str)
    (ha : args.action = some action)
    (hfind : (findAction (actionKey (actionKey action))).isSome = true) :
    ∃ tr out, Runs (executeAction slug (actionKey action)) tr out ∧ metadata tr = [] ∧
      PostsFor args slug tr := by
  obtain ⟨e, he⟩ := Option.isSome_iff_exists.mp hfind
  obtain ⟨hbefore, hmem⟩ := before_of_action ha he
  obtain ⟨hm, hp⟩ := postExchange_posts hbefore hmem slug .null (some e.timeout)
  have h₁ := exists_runs_supervisorApiCall (e.format slug) "POST" .null (some e.timeout) .null
  obtain ⟨out, h⟩ : ∃ out, Runs (executeAction slug (actionKey action)) _ out := by
    unfold executeAction
    simp only [he]
    exact ⟨_, runs_bind_iff.mpr (.inl ⟨_, _, [], h₁, by rw [isSuccess_success]; exact .ret _,
      (List.append_nil _).symm⟩)⟩
  exact ⟨_, out, h, hm, hp⟩

theorem exists_runs_executeConfigUpdate {args : ManageArgs} {slug : Str} {addon config : Dict}
    (ha : args.action = none) (hsub : ∃ p, submittedConfig addon config = .ok p) :
    ∃ tr out, Runs (executeConfigUpdate slug addon config) tr out ∧ metadata tr = [] ∧
      PostsFor args slug tr := by
  obtain ⟨p, hsub⟩ := hsub
  obtain ⟨hbefore, hmem⟩ := before_of_config ha
  obtain ⟨hm, hp⟩ := postExchange_posts hbefore hmem slug (.obj p.1) (some 30)
  have h₁ := exists_runs_supervisorApiCall (optionsEndpoint slug) "POST" (.obj p.1) (some 30) .null
  obtain ⟨out, h⟩ : ∃ out, Runs (executeConfigUpdate slug addon config) _ out := by
    unfold executeConfigUpdate
    rw [hsub, ofExcept_ok, bind_eq, bind_ret]
    exact ⟨_, runs_bind_iff.mpr (.inl ⟨_, _, [], h₁, by rw [isSuccess_success]; exact .ret _,
      (List.append_nil _).symm⟩)⟩
  exact ⟨_, out, h, hm, hp⟩

/-- Whatever the arguments and the metadata ask for is posted in some run. -/
theorem exists_runs_manageEsphomeAddon (fuel : ℕ) (hass : Hass) {args : ManageArgs}
    {records : List (Str × Json)} {a : Dict} {slug : Str} (ht : Target args records a slug)
    (hacts : args.Acts a) :
    ∃ tr out, Runs (manageEsphomeAddon fuel hass args) tr out ∧ metadata tr = records ∧
      PostsFor args slug tr := by
  obtain ⟨hcomb, hready⟩ := hacts
  -- the part behind the resolved record
  have hresolved (tr₁ : List Exchange) (hi : args.installSlug = none)
      (h₁ : Runs (resolveEsphomeAddon args.slug) tr₁ (.ok (success [("addon", .obj a)])))
      (hm₁ : metadata tr₁ = records) (hslug : slug = resolvedSlug args a) :
      ∃ tr out, Runs (manageEsphomeAddon fuel hass args) tr out ∧ metadata tr = records ∧
        PostsFor args slug tr := by
    have hread : addonPosts tr₁ = [] :=
      addonPosts_of_issues (Issues.mono (fun _ => isHarmless_of_isRead)
        (issues_resolveEsphomeAddon args.slug)) h₁
    obtain ⟨tr₂, out, h₂, hm₂, after, hmem, hp⟩ : ∃ tr₂ out,
        Runs (match args.action.map actionKey with
          | some key =>
            if args.path.isSome ∨ buildConfigPayload args.config ≠ [] then
              (ret combinedActionError : Coro Dict)
            else executeAction slug key
          | none =>
            if buildConfigPayload args.config ≠ [] then
              if args.path.isSome then
                ret (error "path cannot be combined with config parameters." "invalid_mode" [])
              else executeConfigUpdate slug a (buildConfigPayload args.config)
            else manageCall fuel hass args slug a) tr₂ out ∧
          metadata tr₂ = [] ∧ PostsFor args slug tr₂ := by
      cases ha : args.action with
      | some action =>
        rw [ha] at hready
        have hsome : args.action.isSome = true := by rw [ha]; rfl
        have hsolo : ¬(args.path.isSome = true ∨ buildConfigPayload args.config ≠ []) :=
          fun h => hcomb (h.elim (fun h => .inl ⟨hsome, h⟩) fun h => .inr (.inl ⟨hsome, h⟩))
        simp only [Option.map_some, if_neg hsolo]
        exact exists_runs_executeAction _ ha hready
      | none =>
        rw [ha] at hready
        have hpath : ¬args.path.isSome = true := fun h => hcomb (.inr (.inr ⟨hready.1, h⟩))
        simp only [Option.map_none, if_pos hready.1, if_neg hpath]
        exact exists_runs_executeConfigUpdate ha hready.2
    refine ⟨tr₁ ++ tr₂, out, ?_, by rw [metadata_append, hm₁, hm₂, List.append_nil], after, hmem,
      by rw [addonPosts_append, hread, hp]; rfl⟩
    unfold manageEsphomeAddon
    simp only [hi]
    refine runs_bind_iff.mpr (.inl ⟨_, tr₁, tr₂, h₁, ?_, rfl⟩)
    simp only [isSuccess_success, Bool.not_true, Bool.false_eq_true, if_false,
      dictGet_success_cons "addon" _ _ (by decide), ← hslug]
    exact h₂
  cases ht with
  | install slug hi hc =>
    have hkey : args.action.map actionKey = some (str "install") := by
      rw [ManageArgs.installSlug] at hi
      split_ifs at hi with hk
      exact hk
    obtain ⟨action, ha, hkey⟩ := Option.map_eq_some_iff.mp hkey
    rw [ha] at hready
    have hsome : args.action.isSome = true := by rw [ha]; rfl
    have hsolo : ¬(args.path.isSome = true ∨ buildConfigPayload args.config ≠ []) :=
      fun h => hcomb (h.elim (fun h => .inl ⟨hsome, h⟩) fun h => .inr (.inl ⟨hsome, h⟩))
    obtain ⟨tr, out, h, hm, hp⟩ := exists_runs_executeAction slug ha hready
    refine ⟨tr, out, ?_, hm, hp⟩
    unfold manageEsphomeAddon
    simp only [hi, if_neg hsolo, if_pos hc]
    exact hkey ▸ h
  | given slug a hi hg hl =>
    obtain ⟨c, s, hslug, hs⟩ := givenSlug_eq_some hg
    subst hs
    refine hresolved (infoExchange (c :: s) (supervisorAnswer (.obj a))) hi ?_ ?_ rfl
    · rw [hslug]
      exact exists_runs_resolveEsphomeAddon_given hl
    · rw [(infoExchange_posts _ _).2, normalizeSupervisorPayload_answer]
  | auto payload addons m a hi hg hp hm hs =>
    refine hresolved (listExchange (supervisorAnswer payload) ++
      infoExchange (strOf (dictGet m "slug")) (supervisorAnswer (.obj a))) hi ?_ ?_ rfl
    · exact exists_runs_resolveEsphomeAddon_auto (givenSlug_eq_none hg) hp hm hs
    · rw [metadata_append, (listExchange_posts _).2, (infoExchange_posts _ _).2,
        normalizeSupervisorPayload_answer, normalizeSupervisorPayload_answer]
      rfl

/-! ## When every POST is for one ESPHome add-on -/

/-- The segment is named by ESPHome metadata, or by an explicit install as `esphome`. -/
def Named (args : ManageArgs) (records : List (Str × Json)) (seg : Str) : Prop :=
  NamesEsphome records seg ∨
    (args.installSlug.isSome = true ∧ contains "esphome" (lower seg) = true)

/-- What the POSTs of a run should be. -/
structure PostsOk (args : ManageArgs) (tr : List Exchange) : Prop where
  single : (addonPosts tr).length ≤ 1
  uncombined : args.IsCombined → addonPosts tr = []
  names : ∀ endpoint ∈ addonPosts tr, ∃ t ∈ postTemplates, ∃ seg, isSegment seg = true ∧
    pathPart endpoint = t.1 ++ seg ++ t.2 ∧ Named args (metadata tr) seg

/-- The slug is one segment and, where the add-on was found by listing, the record read for it
keeps the listed slug or looks like ESPHome itself; or what ends a path cuts the slug behind
such a segment and a template's text. -/
def SlugOk (args : ManageArgs) (records : List (Str × Json)) (slug : Str) : Prop :=
  (isSegment slug = true ∧
    (args.givenSlug.isSome = true ∨ ∃ asked a, (infoEndpoint asked, Json.obj a) ∈ records ∧
      (slug = asked ∨ looksLikeEsphomeAddon a = true ∧ (dictGet a "slug").truthy = true))) ∨
  ∃ seg after c rest, slug = seg ++ after ++ c :: rest ∧ endsPath c = true ∧
    (args.before, after) ∈ postTemplates ∧ isSegment seg = true ∧ Named args records seg

/-- An ESPHome record carries the slug unless the record read for a listed add-on has a slug
of its own that nothing ties to ESPHome. -/
theorem named_iff {args : ManageArgs} {records : List (Str × Json)} {a : Dict} {slug : Str}
    (ht : Target args records a slug) :
    Named args records slug ↔
      args.givenSlug.isSome = true ∨ ∃ asked a, (infoEndpoint asked, Json.obj a) ∈ records ∧
        (slug = asked ∨ looksLikeEsphomeAddon a = true ∧ (dictGet a "slug").truthy = true) := by
  cases ht with
  | install slug hi hc =>
    have hg : args.givenSlug = some slug := by
      rw [ManageArgs.installSlug] at hi
      split_ifs at hi
      exact hi
    exact iff_of_true (.inr ⟨by rw [hi]; rfl, hc⟩) (.inl (by rw [hg]; rfl))
  | given slug a hi hg hl =>
    refine iff_of_true (.inl (.inl ⟨slug, a, List.mem_singleton.mpr rfl, hl, ?_⟩))
      (.inl (by rw [hg]; rfl))
    rw [resolvedSlug, hg]
    rfl
  | auto payload addons m a hi hg hp hm hs =>
    have hempty : args.givenSlug.getD [] = [] := by rw [hg]; rfl
    constructor
    · rintro ((⟨asked, a', hmem, hl, hseg⟩ | ⟨payload', addons', m', hmem, hp', hm', hl, -, hseg⟩)
        | ⟨hinstall, -⟩)
      · refine .inr ⟨asked, a', hmem, ?_⟩
        have hne : (infoEndpoint asked, Json.obj a') ≠ (str "/addons", payload) :=
          fun h => infoEndpoint_ne asked (congrArg Prod.fst h)
        simp only [List.mem_cons, hne, false_or, Prod.mk.injEq, Json.obj.injEq, List.not_mem_nil,
          or_false] at hmem
        obtain ⟨-, rfl⟩ := hmem
        by_cases htruthy : (dictGet a' "slug").truthy = true
        · exact .inr ⟨hl, htruthy⟩
        · -- without a slug of its own the record goes by the slug that was asked for
          rw [hseg, Json.orElse, if_neg htruthy]
          exact .inl rfl
      · have hne : (str "/addons", payload') ≠
            (infoEndpoint (strOf (dictGet m "slug")), Json.obj a) :=
          fun h => infoEndpoint_ne _ (congrArg Prod.fst h).symm
        simp only [List.mem_cons, hne, Prod.mk.injEq, true_and, List.not_mem_nil, or_false] at hmem
        subst hmem
        obtain rfl : addons' = addons := by simpa [hp'] using hp
        have hfound := (mem_esphomeMatches hm (.obj m')).mpr ⟨hm', looksLike_obj.mpr hl⟩
        obtain rfl : m' = m := by simpa using hfound
        exact .inr ⟨_, a, List.mem_cons_of_mem _ (List.mem_singleton.mpr rfl), .inl hseg⟩
      · rw [hi] at hinstall
        cases hinstall
    · rintro (hgiven | ⟨asked, a', hmem, hcase⟩)
      · rw [hg] at hgiven
        cases hgiven
      · have hne : (infoEndpoint asked, Json.obj a') ≠ (str "/addons", payload) :=
          fun h => infoEndpoint_ne asked (congrArg Prod.fst h)
        have hrecord := hmem
        simp only [List.mem_cons, hne, false_or, Prod.mk.injEq, Json.obj.injEq, List.not_mem_nil,
          or_false] at hrecord
        obtain ⟨hasked, rfl⟩ := hrecord
        rcases hcase with hslug | ⟨hl, htruthy⟩
        · have hfound := (mem_esphomeMatches hm (.obj m)).mp (List.mem_singleton.mpr rfl)
          refine .inl (.inr ⟨payload, addons, m, List.mem_cons_self, hp, hfound.1,
            looksLike_obj.mp hfound.2, hs, ?_⟩)
          rw [hslug, infoEndpoint_injective hasked]
        · refine .inl (.inl ⟨asked, a', hmem, hl, ?_⟩)
          rw [resolvedSlug, Json.orElse, Json.orElse, if_pos htruthy, if_pos htruthy]

/-- For the given arguments and metadata, every run posts at most once, only for arguments of
one kind and only to one ESPHome add-on, exactly when the slug that the arguments and the
metadata make is such an add-on's, or nothing is posted for it. -/
theorem postsOk_iff {args : ManageArgs} {records : List (Str × Json)} :
    (∀ fuel hass tr out, Runs (manageEsphomeAddon fuel hass args) tr out →
      metadata tr = records → PostsOk args tr) ↔
      ∀ a slug, Target args records a slug → args.Acts a → SlugOk args records slug := by
  constructor
  · intro h a slug ht hacts
    obtain ⟨tr, out, hruns, hm, after, hmem, hp⟩ :=
      exists_runs_manageEsphomeAddon 0 ⟨none⟩ ht hacts
    obtain ⟨t, ht', seg, hseg, hpath, hnamed⟩ :=
      (h _ _ _ _ hruns hm).names (args.before ++ slug ++ after) (by rw [hp]; exact List.mem_cons_self)
    rw [hm] at hnamed
    obtain ⟨-, rfl | ⟨after', c, rest, hmem', hc, he⟩⟩ :=
      (addresses_iff hmem slug seg).mp ⟨hseg, t, ht', hpath⟩
    · exact .inl ⟨hseg, (named_iff ht).mp hnamed⟩
    · exact .inr ⟨seg, after', c, rest, he, hc, hmem', hseg, hnamed⟩
  · rintro h fuel hass tr out hruns rfl
    rcases runs_manageEsphomeAddon hruns with hnone | ⟨a, slug, ht, hacts, after, hmem, hp⟩
    · exact ⟨by rw [hnone]; simp, fun _ => hnone, by rw [hnone]; simp⟩
    · refine ⟨by rw [hp]; simp, fun hc => absurd hc hacts.1, fun endpoint he => ?_⟩
      obtain rfl := List.mem_singleton.mp (hp ▸ he)
      obtain ⟨seg, haddr, hnamed⟩ : ∃ seg, Addresses args.before slug seg ∧
          Named args (metadata tr) seg := by
        rcases h a slug ht hacts with ⟨hseg, hname⟩ | ⟨seg, after', c, rest, he, hc, hm, hseg, hn⟩
        · exact ⟨slug, ⟨hseg, .inl rfl⟩, (named_iff ht).mpr hname⟩
        · exact ⟨seg, ⟨hseg, .inr ⟨after', c, rest, hm, hc, he⟩⟩, hn⟩
      obtain ⟨hseg, t, ht', hpath⟩ := (addresses_iff hmem slug seg).mpr haddr
      exact ⟨t, ht', seg, hseg, hpath, hnamed⟩

end

/-- The arguments of an install by slug and nothing else. -/
def installArgs (slug : Str) : ManageArgs :=
  ⟨some slug, some "install", none, "GET", .null, false, true, none, 0, ⟨none, none, none, none, none⟩,
    none, 120, false, none⟩

/-- An install of `core_ssh/install?esphome` posts to `/store/addons/core_ssh/install`: the
substring test sees the query, the Supervisor does not. -/
theorem not_forall_postsOk : ¬∀ fuel hass args tr out,
    @Runs _ _ _ (@manageEsphomeAddon asciiRuntime fuel hass args) tr out →
      @PostsOk asciiRuntime args tr := by
  let _ : Runtime := asciiRuntime
  intro h
  let args := installArgs (str "core_ssh/install?esphome")
  have ht : Target args [] [] (str "core_ssh/install?esphome") := .install _ rfl rfl
  have hsolo : ¬(args.path.isSome = true ∨ buildConfigPayload args.config ≠ []) := by
    rintro (hc | hc)
    · cases hc
    · exact hc rfl
  have hacts : args.Acts [] := acts_of_action rfl rfl hsolo
  obtain ⟨tr, out, hruns, hm, after, -, hp⟩ := exists_runs_manageEsphomeAddon 0 ⟨none⟩ ht hacts
  obtain ⟨t, ht', seg, hseg, hpath, hnamed⟩ :=
    (h 0 ⟨none⟩ args tr out hruns).names _ (by rw [hp]; exact List.mem_cons_self)
  have hcut : pathPart (args.before ++ str "core_ssh/install?esphome" ++ after) =
      str "/store/addons/" ++ (str "core_ssh" ++ str "/install") := rfl
  obtain ⟨hbefore, ⟨name, hafter, hname⟩, -, -⟩ := postTemplates_spec ht'
  rw [hcut, List.append_assoc] at hpath
  have htail := (before_inj (.inr rfl) hbefore hpath).2
  obtain rfl : str "core_ssh" = seg := (@middle_inj _ _ _ _ (str "install") _ rfl (by decide) hafter
    hname (isSegment_iff.mp hseg).1 htail).1
  -- no metadata was read, and the segment does not contain `esphome`
  rcases hnamed with (⟨_, _, hrecord, -⟩ | ⟨_, _, _, hrecord, -⟩) | ⟨-, hcontains⟩
  · rw [hm] at hrecord
    cases hrecord
  · rw [hm] at hrecord
    cases hrecord
  · exact absurd hcontains (by decide)

end EsphomeMcp.Addon
