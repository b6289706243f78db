import OpenDweb.Ai.RewriteUrl

/-!
# OpenDweb — what goes upstream stays where the service says

* **`Contained`** — origin, base path, routes and headers of a plan.
* **`Confined`** — what the assertions of `buildUpstreamRequest` do not see: dots that only the URL
  parser reads, and header names that are not in lower case.
* **`upstream_contained`** — a plan is contained if and only if its request is confined.
-/

namespace Dweb

open List Option

/-! ## Names of headers -/

def HeaderMap.names (headers : HeaderMap) : List (List Char) := headers.map Prod.fst

section

variable {headers entries : HeaderMap} {name other value : List Char}

theorem HeaderMap.mem_names_assign : name ∈ (headers.assign other value).names ↔
    name ∈ headers.names ∨ name = other ∧ other ≠ "__proto__".toList := by
  rw [HeaderMap.assign]
  split
  · next hproto => simp [hproto]
  · next hproto =>
    split
    · next hany =>
      have hold : other ∈ headers.names := by
        obtain ⟨entry, hmem, heq⟩ := List.any_eq_true.mp hany
        exact List.mem_map.mpr ⟨entry, hmem, of_decide_eq_true heq⟩
      have hsame : (headers.map fun entry => if entry.1 = other then (other, value) else entry).map
          Prod.fst = headers.map Prod.fst := by
        rw [List.map_map]
        refine map_congr_left fun entry _ => ?_
        show (if entry.1 = other then (other, value) else entry).1 = entry.1
        split
        · next heq => exact heq.symm
        · rfl
      rw [HeaderMap.names, hsame, ← HeaderMap.names]
      exact ⟨.inl, fun h => h.elim id fun ⟨heq, _⟩ => heq ▸ hold⟩
    · rw [HeaderMap.names, map_append, mem_append, ← HeaderMap.names, map_singleton,
        mem_singleton]
      exact ⟨fun h => h.imp_right fun heq => ⟨heq, hproto⟩, fun h => h.imp_right And.left⟩

theorem HeaderMap.mem_names_assignAll : name ∈ (headers.assignAll entries).names ↔
    name ∈ headers.names ∨ name ∈ entries.names ∧ name ≠ "__proto__".toList := by
  induction entries generalizing headers with
  | nil => simp [HeaderMap.assignAll, HeaderMap.names]
  | cons entry entries ih =>
    show name ∈ ((headers.assign entry.1 entry.2).assignAll entries).names ↔ _
    rw [ih, HeaderMap.mem_names_assign, HeaderMap.names, HeaderMap.names, HeaderMap.names,
      map_cons, mem_cons]
    constructor
    · rintro ((hold | ⟨heq, hproto⟩) | ⟨hmem, hproto⟩)
      · exact .inl hold
      · exact .inr ⟨.inl heq, heq ▸ hproto⟩
      · exact .inr ⟨.inr hmem, hproto⟩
    · rintro (hold | ⟨heq | hmem, hproto⟩)
      · exact .inl (.inl hold)
      · exact .inl (.inr ⟨heq, heq ▸ hproto⟩)
      · exact .inr ⟨hmem, hproto⟩

theorem HeaderMap.mem_names_remove {names : List (List Char)} :
    name ∈ (headers.remove names).names ↔ name ∈ headers.names ∧ name ∉ names := by
  rw [HeaderMap.names, HeaderMap.names, HeaderMap.remove, List.mem_map, List.mem_map]
  constructor
  · rintro ⟨entry, hmem, heq⟩
    obtain ⟨hentry, hnot⟩ := mem_filter.mp hmem
    exact ⟨⟨entry, hentry, heq⟩, heq ▸ of_decide_eq_true hnot⟩
  · rintro ⟨⟨entry, hentry, heq⟩, hnot⟩
    exact ⟨entry, mem_filter.mpr ⟨hentry, decide_eq_true (heq ▸ hnot)⟩, heq⟩

end

theorem lowerName_lowerName (name : List Char) : lowerName (lowerName name) = lowerName name := by
  rw [lowerName, lowerName, List.map_map]
  exact map_congr_left fun c _ => jsLower_jsLower c

/-! ## The law -/

section

variable (platform : RewritePlatform) (service : UpstreamService) (upstream : WebUrl)
  (req : UpstreamRequest)

/-- The entry of `headers.set` for a name; empty values are none. -/
def SlotSets (name : List Char) : Prop :=
  ∃ slot, service.headers = some slot ∧ ∃ value, (name, value) ∈ slot.set ∧ value ≠ []

def SlotRemoves (name : List Char) : Prop :=
  ∃ slot, service.headers = some slot ∧ name ∈ slot.remove

/-- The service writes a header of this name, or the content type of the request is it. -/
inductive Writes (name : List Char) : Prop
  | contentType (h : name = "content-type".toList) (hsome : req.contentType.getD [] ≠ [])
  | credential (h : name = "authorization".toList)
    (hsome : (effectiveLifecycleSlots platform service).1 ≠ none)
  | slot (h : SlotSets service name)
  | script {headers : HeaderMap} {increment : HeaderIncrement}
    (hslot : slotHeaders platform service req = .ok headers)
    (hscript : headersIncrement platform service req headers = .ok increment)
    (h : name ∈ increment.set.map fun entry => lowerName entry.1)

def routeTarget (route : ServiceRoute) : List (List Char) :=
  (dotNormal (rewritePath service.rewrite upstream (routeRoot route))).map (percentEncode inPathSet)

structure Contained (plan : UpstreamPlan) : Prop where
  origin : plan.url.origin = upstream.origin
  base : basePath upstream <+: plan.url.path
  offered : service.routes ≠ [] → ∃ route ∈ service.routes, ∃ result,
    matchRoute platform route (splitQuery req.path).1 (splitQuery req.path).2 = .ok (some result)
  below : ∀ route result, routedRequest platform service req = .ok (some route, result) →
    route.mode ≠ some .byPattern → routeTarget service upstream route <+: plan.url.path
  headers : ∀ name ∈ plan.headers.names, lowerName name ∈ DEFENSIVE_STRIP →
    Writes platform service req name

def requestSegments (result : List Char × List Char) : List (List Char) :=
  readSegments platform.toUrlPlatform upstream
    (urlInput (rewritePath service.rewrite upstream result.1) result.2)

structure Confined : Prop where
  base : ∀ route result, routedRequest platform service req = .ok (route, result) →
    Returns urlKind [] (basePath upstream)
      ((requestSegments platform service upstream result).drop (basePath upstream).length)
  below : ∀ route result, routedRequest platform service req = .ok (some route, result) →
    route.mode ≠ some .byPattern →
    Lands urlKind [] (routeTarget service upstream route)
      (requestSegments platform service upstream result)
  headers : ∀ name ∈ req.headers.names, name ∉ DEFENSIVE_STRIP →
    lowerName name ∈ DEFENSIVE_STRIP → SlotRemoves service name ∨ SlotSets service name

variable {platform service upstream req}

/-! ## The headers -/

theorem ne_proto_of_lower {name : List Char} (h : lowerName name ∈ DEFENSIVE_STRIP) :
    name ≠ "__proto__".toList := by
  intro heq
  rw [heq] at h
  exact absurd h (by decide)

theorem mem_names_requestHeaders {name : List Char} (hproto : name ≠ "__proto__".toList) :
    name ∈ (requestHeaders req).names ↔ name ∈ req.headers.names ∧ name ∉ DEFENSIVE_STRIP ∨
      name = "content-type".toList ∧ req.contentType.getD [] ≠ [] := by
  have hkept : name ∈ (HeaderMap.assignAll []
      (req.headers.filter fun entry => entry.1 ∉ DEFENSIVE_STRIP)).names ↔
      name ∈ req.headers.names ∧ name ∉ DEFENSIVE_STRIP := by
    rw [HeaderMap.mem_names_assignAll, show req.headers.filter _ = req.headers.remove _ from rfl,
      HeaderMap.mem_names_remove]
    exact ⟨fun h => h.elim nofun And.left, fun h => .inr ⟨h, hproto⟩⟩
  have htype : "content-type".toList ≠ "__proto__".toList := by decide
  rw [requestHeaders]
  cases hcontent : req.contentType with
  | none => exact hkept.trans ⟨.inl, fun h => h.resolve_right fun h => h.2 rfl⟩
  | some value =>
    cases value with
    | nil => exact hkept.trans ⟨.inl, fun h => h.resolve_right fun h => h.2 rfl⟩
    | cons c value =>
      simp only
      rw [HeaderMap.mem_names_assign, hkept]
      exact or_congr_right ⟨fun h => ⟨h.1, cons_ne_nil _ _⟩, fun h => ⟨h.1, htype⟩⟩

theorem resolveLiteralHeaderValue_none {value : List Char} {resolved : Option (List Char)}
    (h : resolveLiteralHeaderValue platform value = .ok resolved) :
    resolved = none ↔ value = [] := by
  rw [resolveLiteralHeaderValue] at h
  split at h
  · next hnil => exact ⟨fun _ => hnil, fun _ => (Except.ok.inj h).symm⟩
  · next hne =>
    refine ⟨fun hnone => ?_, fun hnil => absurd hnil hne⟩
    rw [hnone] at h
    split at h
    · cases h
    · split at h
      · split at h <;> cases h
      · cases h

theorem mem_names_resolveHeaderSet {set resolved : HeaderMap} {name : List Char}
    (h : resolveHeaderSet platform set = .ok resolved) :
    name ∈ resolved.names ↔ ∃ value, (name, value) ∈ set ∧ value ≠ [] := by
  induction set generalizing resolved with
  | nil =>
    rw [← Except.ok.inj h]
    exact ⟨fun hmem => (by cases hmem), fun ⟨_, hmem, _⟩ => by cases hmem⟩
  | cons entry set ih =>
    obtain ⟨all, hall, hret⟩ := bind_eq_ok.mp h
    rw [mapM_cons] at hall
    obtain ⟨first, hfirst, hall⟩ := bind_eq_ok.mp hall
    obtain ⟨rest, hrest, hcons⟩ := bind_eq_ok.mp hall
    obtain ⟨value, hvalue, hpair⟩ := bind_eq_ok.mp hfirst
    have htail := ih (bind_eq_ok.mpr ⟨rest, hrest, rfl⟩)
    have hnone := resolveLiteralHeaderValue_none hvalue
    rw [← Except.ok.inj hret, ← Except.ok.inj hcons, ← Except.ok.inj hpair]
    cases value with
    | none =>
      refine htail.trans ⟨fun ⟨v, hmem, hne⟩ => ⟨v, mem_cons_of_mem _ hmem, hne⟩, ?_⟩
      rintro ⟨v, hmem, hne⟩
      rcases mem_cons.mp hmem with heq | hmem
      · rw [← heq] at hnone
        exact absurd (hnone.mp rfl) hne
      · exact ⟨v, hmem, hne⟩
    | some v =>
      have hfull : entry.2 ≠ [] := fun hnil => by cases hnone.mpr hnil
      show name ∈ entry.1 :: _ ↔ _
      rw [mem_cons]
      constructor
      · rintro (heq | hmem)
        · exact ⟨entry.2, heq ▸ mem_cons_self, hfull⟩
        · obtain ⟨w, hw, hne⟩ := htail.mp hmem
          exact ⟨w, mem_cons_of_mem _ hw, hne⟩
      · rintro ⟨w, hmem, hne⟩
        rcases mem_cons.mp hmem with heq | hmem
        · exact .inl (congrArg Prod.fst heq)
        · exact .inr (htail.mpr ⟨w, hmem, hne⟩)

variable {headers : HeaderMap} {result : List Char × List Char}

theorem authorized_names {name : List Char}
    (h : authorizedHeaders platform service req = .ok headers) :
    (name ∈ (requestHeaders req).names → name ∈ headers.names) ∧
    (name ∈ headers.names → name ∈ (requestHeaders req).names ∨
      Writes platform service req name) := by
  rw [authorizedHeaders] at h
  split at h
  · rw [← Except.ok.inj h]
    exact ⟨id, .inl⟩
  · next auth hauth =>
    obtain ⟨value, -, h⟩ := bind_eq_ok.mp h
    cases value with
    | none =>
      rw [← Except.ok.inj h]
      exact ⟨id, .inl⟩
    | some value =>
      rw [← Except.ok.inj h, HeaderMap.mem_names_assign]
      refine ⟨.inl, fun hmem => hmem.imp_right fun hname => .credential hname.1 ?_⟩
      rw [hauth]
      exact some_ne_none auth

theorem slotHeaders_names {name : List Char}
    (hslot : slotHeaders platform service req = .ok headers) :
    (name ∈ (requestHeaders req).names → name ∈ headers.names ∨ SlotRemoves service name) ∧
    (name ∈ headers.names → name ∈ (requestHeaders req).names ∧ ¬ SlotRemoves service name ∨
      Writes platform service req name) := by
  obtain ⟨authorized, hauthorized, hslot⟩ := bind_eq_ok.mp hslot
  obtain ⟨hkeeps, hcomes⟩ := @authorized_names _ _ _ _ name hauthorized
  cases hservice : service.headers with
  | none =>
    rw [hservice] at hslot
    have hfree : ¬ SlotRemoves service name := fun ⟨slot, hsome, _⟩ => by
      rw [hservice] at hsome
      cases hsome
    rw [← Except.ok.inj hslot]
    exact ⟨fun hmem => .inl (hkeeps hmem), fun hmem => (hcomes hmem).imp_left (⟨·, hfree⟩)⟩
  | some slot =>
    rw [hservice] at hslot
    obtain ⟨set, hset, hslot⟩ := bind_eq_ok.mp hslot
    rw [← Except.ok.inj hslot, HeaderMap.mem_names_assignAll, HeaderMap.mem_names_remove,
      mem_names_resolveHeaderSet hset]
    constructor
    · intro hmem
      by_cases hremove : name ∈ slot.remove
      · exact .inr ⟨slot, hservice, hremove⟩
      · exact .inl (.inl ⟨hkeeps hmem, hremove⟩)
    · rintro (⟨hmem, hremove⟩ | ⟨hset, -⟩)
      · refine (hcomes hmem).imp_left (⟨·, fun ⟨slot', hsome, hremoved⟩ => hremove ?_⟩)
        rw [hservice] at hsome
        exact some.inj hsome ▸ hremoved
      · exact .inr (.slot ⟨slot, hservice, hset⟩)

/-- **The headers** that are not the service's are the request's other spellings. -/
theorem headers_iff (h : upstreamHeaders platform service req = .ok headers) :
    (∀ name ∈ headers.names, lowerName name ∈ DEFENSIVE_STRIP →
      Writes platform service req name) ↔
    ∀ name ∈ req.headers.names, name ∉ DEFENSIVE_STRIP →
      lowerName name ∈ DEFENSIVE_STRIP → SlotRemoves service name ∨ SlotSets service name := by
  obtain ⟨slotted, hslot, h⟩ := bind_eq_ok.mp h
  obtain ⟨increment, hscript, h⟩ := bind_eq_ok.mp h
  rw [← Except.ok.inj h]
  have hother : ∀ {name : List Char}, name ∉ DEFENSIVE_STRIP → lowerName name ∈ DEFENSIVE_STRIP →
      ∀ written, name ≠ lowerName written := fun hout hin written heq => by
    rw [heq, lowerName_lowerName, ← heq] at hin
    exact hout hin
  constructor
  · intro hall name hmem hout hin
    have hproto := ne_proto_of_lower hin
    rcases (slotHeaders_names hslot).1
      ((mem_names_requestHeaders hproto).mpr (.inl ⟨hmem, hout⟩)) with hslotted | hremoved
    · have hguard : name ∉ GUARD_STRIP := fun hmem => hout (by
        revert hmem
        exact fun hmem => List.Subset.trans (by decide : GUARD_STRIP ⊆ DEFENSIVE_STRIP)
          (List.Subset.refl _) hmem)
      have hkept : name ∉ increment.remove.map lowerName := fun hmem => by
        obtain ⟨written, -, heq⟩ := List.mem_map.mp hmem
        exact hother hout hin written heq.symm
      cases hall name (HeaderMap.mem_names_remove.mpr ⟨HeaderMap.mem_names_assignAll.mpr
        (.inl (HeaderMap.mem_names_remove.mpr ⟨hslotted, hkept⟩)), hguard⟩) hin with
      | contentType heq =>
        exact absurd (heq ▸ (by decide : "content-type".toList ∈ DEFENSIVE_STRIP)) hout
      | credential heq =>
        exact absurd (heq ▸ (by decide : "authorization".toList ∈ DEFENSIVE_STRIP)) hout
      | slot hset => exact .inr hset
      | script _ _ hmem =>
        obtain ⟨entry, -, heq⟩ := List.mem_map.mp hmem
        exact absurd heq.symm (hother hout hin entry.1)
    · exact .inl hremoved
  · intro hall name hmem hin
    have hproto := ne_proto_of_lower hin
    rcases HeaderMap.mem_names_assignAll.mp (HeaderMap.mem_names_remove.mp hmem).1 with
      hslotted | ⟨hset, -⟩
    · rcases (slotHeaders_names hslot).2 (HeaderMap.mem_names_remove.mp hslotted).1 with
        ⟨hreq, hfree⟩ | hwritten
      · rcases (mem_names_requestHeaders hproto).mp hreq with ⟨hmem, hout⟩ | ⟨heq, hsome⟩
        · rcases hall name hmem hout hin with hremoved | hset
          · exact absurd hremoved hfree
          · exact .slot hset
        · exact .contentType heq hsome
      · exact hwritten
    · refine .script hslot hscript ?_
      rwa [HeaderMap.names, List.map_map] at hset

/-! ## The path -/

theorem routeRequest_some {routes : List ServiceRoute} {path query : List Char}
    {route : ServiceRoute}
    (h : routeRequest platform routes path query = .ok (some (route, result))) :
    route ∈ routes ∧ matchRoute platform route path query = .ok (some result) := by
  induction routes with
  | nil => cases Except.ok.inj h
  | cons first routes ih =>
    obtain ⟨matched, hmatched, h⟩ := bind_eq_ok.mp h
    cases matched with
    | none =>
      obtain ⟨hmem, hmatch⟩ := ih h
      exact ⟨mem_cons_of_mem _ hmem, hmatch⟩
    | some found =>
      have hpair := some.inj (Except.ok.inj h)
      rw [Prod.mk.injEq] at hpair
      rw [← hpair.1, ← hpair.2]
      exact ⟨mem_cons_self, hmatched⟩

theorem routedRequest_some {route : Option ServiceRoute}
    (h : routedRequest platform service req = .ok (route, result)) (hroutes : service.routes ≠ []) :
    ∃ taken ∈ service.routes, route = some taken ∧
      matchRoute platform taken (splitQuery req.path).1 (splitQuery req.path).2 =
        .ok (some result) := by
  obtain ⟨-, -, h⟩ := bind_eq_ok.mp h
  simp only [if_neg hroutes] at h
  obtain ⟨taken, htaken, h⟩ := bind_eq_ok.mp h
  cases taken with
  | none => cases h
  | some taken =>
    have hpair := Except.ok.inj h
    rw [Prod.mk.injEq] at hpair
    obtain ⟨hmem, hmatch⟩ := routeRequest_some htaken
    exact ⟨taken.1, hmem, hpair.1.symm, hpair.2 ▸ hmatch⟩

theorem buildUpstreamRequest_ok {plan : UpstreamPlan}
    (hupstream : parseUpstreamUrl platform service.upstream = .ok upstream)
    (hplan : buildUpstreamRequest platform service req = .ok plan) :
    ∃ route result, routedRequest platform service req = .ok (route, result) ∧
      parseReference platform.toUrlPlatform
        (urlInput (rewritePath service.rewrite upstream result.1) result.2) upstream =
          some plan.url ∧
      plan.url.origin = upstream.origin ∧
      pathHasPrefix (rewritePath service.rewrite upstream result.1)
        (normalizeDotSegments upstream.pathname) = true ∧
      upstreamHeaders platform service req = .ok plan.headers := by
  obtain ⟨parsed, hparsed, hplan⟩ := bind_eq_ok.mp hplan
  rw [hupstream] at hparsed
  rw [← Except.ok.inj hparsed] at hplan
  obtain ⟨⟨route, path, query⟩, hrouted, hplan⟩ := bind_eq_ok.mp hplan
  refine ⟨route, (path, query), hrouted, ?_⟩
  simp only at hplan
  split at hplan
  · cases hplan
  · next url hparse =>
    split at hplan
    · cases hplan
    · next horigin =>
      split at hplan
      · cases hplan
      · next hbelow =>
        obtain ⟨headers, hheaders, hplan⟩ := bind_eq_ok.mp hplan
        rw [← Except.ok.inj hplan]
        exact ⟨hparse, not_not.mp horigin, not_not.mp hbelow, hheaders⟩

/-- **The base is read first.** -/
theorem basePath_prefix_requestSegments
    (hupstream : parseUpstreamUrl platform service.upstream = .ok upstream)
    (hbelow : pathHasPrefix (rewritePath service.rewrite upstream result.1) (normalizeDotSegments upstream.pathname) = true) :
    (∀ seg ∈ basePath upstream, urlKind seg = .name) ∧
      basePath upstream <+: requestSegments platform service upstream result := by
  have hsegs := parseUpstreamUrl_path hupstream
  have hbase : ∀ seg ∈ basePath upstream, seg ≠ [] ∧ IsUrlSegment seg := by
    rw [basePath_eq hsegs]
    intro seg hmem
    obtain ⟨hseg, hne⟩ := mem_filter.mp hmem
    exact ⟨of_decide_eq_true hne, hsegs seg hseg⟩
  refine ⟨fun seg hmem => (hbase seg hmem).2.isName, ?_⟩
  by_cases hne : basePath upstream = []
  · rw [hne]
    exact nil_prefix
  · obtain ⟨rest, hfinal, hrest⟩ := eq_of_pathHasPrefix hne (fun seg hmem =>
      ⟨(hbase seg hmem).1, fun hslash =>
        absurd ((hbase seg hmem).2.plain '/' hslash).2 (by decide)⟩) hbelow
    rw [requestSegments, urlInput, hfinal, append_assoc]
    refine readSegments_slashPath hne (fun seg hmem => ⟨(hbase seg hmem).1,
      (hbase seg hmem).2.plain⟩) ?_
    rcases hrest with hnil | hslash
    · rw [hnil, nil_append]
      split
      · exact .inl rfl
      · exact .inr (.inr rfl)
    · refine .inr (.inl ?_)
      rw [head?_append, hslash]
      rfl

/-- **What goes upstream.** -/
theorem upstream_contained {plan : UpstreamPlan}
    (hupstream : parseUpstreamUrl platform service.upstream = .ok upstream)
    (hplan : buildUpstreamRequest platform service req = .ok plan) :
    Contained platform service upstream req plan ↔ Confined platform service upstream req := by
  obtain ⟨route, result, hrouted, hparse, horigin, hbelow, hheaders⟩ :=
    buildUpstreamRequest_ok hupstream hplan
  obtain ⟨hnames, hread⟩ := basePath_prefix_requestSegments hupstream hbelow
  have hpath : plan.url.path =
      resolvePath urlKind [] (requestSegments platform service upstream result) :=
    parseReference_path hparse
  have honly : ∀ {route' result'}, routedRequest platform service req = .ok (route', result') →
      route' = route ∧ result' = result := fun h => by
    rw [hrouted] at h
    exact ⟨(congrArg Prod.fst (Except.ok.inj h)).symm, (congrArg Prod.snd (Except.ok.inj h)).symm⟩
  have hbase : basePath upstream <+: plan.url.path ↔ Returns urlKind [] (basePath upstream)
      ((requestSegments platform service upstream result).drop (basePath upstream).length) := by
    obtain ⟨rest, hrest⟩ := hread
    rw [hpath, ← hrest, drop_left]
    exact prefix_resolvePath_append urlKind urlKind_blank hnames
  constructor
  · intro hcontained
    refine ⟨fun route' result' h => ?_, fun taken result' h hmode => ?_,
      (headers_iff hheaders).mp hcontained.headers⟩
    · rw [(honly h).2]
      exact hbase.mp hcontained.base
    · have hlanded := hcontained.below taken result' h hmode
      rw [hpath, prefix_resolvePath_iff urlKind urlKind_blank] at hlanded
      rwa [(honly h).2]
  · intro hconfined
    refine ⟨horigin, hbase.mpr (hconfined.base route result hrouted), fun hroutes => ?_,
      fun taken result' h hmode => ?_, (headers_iff hheaders).mpr hconfined.headers⟩
    · obtain ⟨taken, hmem, -, hmatch⟩ := routedRequest_some hrouted hroutes
      exact ⟨taken, hmem, result, hmatch⟩
    · have hlands := hconfined.below taken result' h hmode
      rw [(honly h).2] at hlands
      rw [hpath]
      exact (prefix_resolvePath_iff urlKind urlKind_blank).mpr hlands

end

namespace SampleRewrite

def platform : RewritePlatform where
  authority := fun _ name => if name = "api.example".toList then some ⟨[], [], name, none⟩ else none
  isOther := fun _ => false
  secrets := fun _ => none
  urlPattern := fun _ => none
  stages := fun _ => (false, false)
  resolveStageAuth := fun _ _ => none
  resolveStageHeaders := fun _ _ => none

def upstream : WebUrl :=
  ⟨"https".toList, ⟨[], [], "api.example".toList, none⟩, ["team".toList], none, none⟩

/-- The base path `/team`, a credential, and one route: `/v1` to `/open`. -/
def service : UpstreamService where
  upstream := "https://api.example/team".toList
  rewrite := ⟨none, none, none⟩
  auth := some ⟨.literal "key".toList, none⟩
  headers := none
  hooks := none
  routes := [⟨[], none, some "/v1".toList, some "/open".toList, none, none⟩]

def request (path : String) (headers : HeaderMap) : UpstreamRequest :=
  ⟨"GET".toList, path.toList, headers, none⟩

def plan (path : List String) (headers : HeaderMap) : UpstreamPlan :=
  ⟨{ upstream with path := path.map String.toList },
    headers ++ [("authorization".toList, "Bearer key".toList)], "api.example".toList, false⟩

theorem parse_upstream : parseUpstreamUrl platform service.upstream = .ok upstream := by
  decide

theorem escapes :
    buildUpstreamRequest platform service
      (request "/v1/%2e%2e/%2E./admin" [("Cookie".toList, "id".toList)]) =
        .ok (plan ["admin"] [("Cookie".toList, "id".toList)]) ∧
    ¬ Contained platform service upstream
      (request "/v1/%2e%2e/%2E./admin" [("Cookie".toList, "id".toList)])
      (plan ["admin"] [("Cookie".toList, "id".toList)]) :=
  ⟨by decide, fun h => absurd h.base (by decide)⟩

theorem plain_path_contained :
    Contained platform service upstream (request "/v1/models" [])
      (plan ["team", "open", "models"] []) := by
  have hbuild : buildUpstreamRequest platform service (request "/v1/models" []) =
      .ok (plan ["team", "open", "models"] []) := by decide
  have hrouted : routedRequest platform service (request "/v1/models" []) =
      .ok (service.routes.head?, "/open/models".toList, []) := by decide
  refine (upstream_contained parse_upstream hbuild).mpr ⟨fun route result h => ?_,
    fun route result h _ => ?_, nofun⟩
  · rw [hrouted] at h
    have hresult : _ = result := congrArg Prod.snd (Except.ok.inj h)
    rw [← hresult]
    decide
  · rw [hrouted] at h
    have hroute : _ = some route := congrArg Prod.fst (Except.ok.inj h)
    have hresult : _ = result := congrArg Prod.snd (Except.ok.inj h)
    rw [← hresult, ← some.inj hroute]
    decide

end SampleRewrite

end Dweb
