import VermouthGateway.Foundation.Runs
import VermouthGateway.Proxy.Returns

/-!
# Limiters and their recorded configuration

The limiters of a proxy are kept by complete path, their configuration by
prefix and then by url.  `Tallied` keeps the two tables in step, and both with
a history: `given` is what was last given to the limiter of a complete path.

* `Tallied.withLimiter`, `Tallied.withRate`: a limiter is made or set.
* `Tallied.withoutPrefix`: a prefix goes, which is only sound when its one
  complete path is the prefix itself.
* `limiters_in_step`: a run whose removals and settings meet their conditions.
* `limiter_left_behind`: a removed prefix leaves the limiters below it.
-/

namespace VermouthGateway
namespace Proxy

open Go Balancing Runs
open HttpReverseProxy

/-- The rate last given to the limiter of a complete path. -/
abbrev Given := String → Option (Int × Int)

/-- An info is recorded under a prefix. -/
def InfoAt (recorded : GoMap String (List LimiterInfo)) (k : String) (info : LimiterInfo) :
    Prop :=
  ∃ infos, recorded.lookup k = some infos ∧ info ∈ infos

/-- Some info under the prefix has the url. -/
def Listed (recorded : GoMap String (List LimiterInfo)) (k url : String) : Prop :=
  ∃ info, InfoAt recorded k info ∧ info.url = url

theorem compeleteUrl_injective (k : String) : Function.Injective (compeleteUrl k) := by
  intro url url' heq
  rw [compeleteUrl, compeleteUrl] at heq
  by_cases hroot : k = "/"
  · rwa [if_pos hroot, if_pos hroot] at heq
  · rw [if_neg hroot, if_neg hroot] at heq
    exact (String.append_right_inj k).mp heq

/-! ## Recording -/

section Recording

variable {recorded : GoMap String (List LimiterInfo)} {q : String} {info : LimiterInfo}

theorem mem_get_iff : info ∈ recorded.get q [] ↔ InfoAt recorded q info := by
  cases hq : recorded.lookup q with
  | none =>
      rw [GoMap.get, hq]
      refine ⟨fun hmem => absurd hmem List.not_mem_nil, ?_⟩
      rintro ⟨infos, hinfos, -⟩
      rw [hq] at hinfos
      cases hinfos
  | some infos =>
      rw [GoMap.get_of_lookup hq]
      refine ⟨fun hmem => ⟨infos, hq, hmem⟩, ?_⟩
      rintro ⟨infos', hinfos, hmem⟩
      rw [hq] at hinfos
      cases hinfos
      exact hmem

theorem infoAt_insert_iff {infos : List LimiterInfo} {k : String} {i : LimiterInfo} :
    InfoAt (recorded.insert q infos) k i ↔
      (k = q ∧ i ∈ infos) ∨ (k ≠ q ∧ InfoAt recorded k i) := by
  rw [InfoAt, GoMap.lookup_insert_eq]
  by_cases hk : k = q
  · rw [if_pos hk]
    simp [hk]
  · rw [if_neg hk]
    simp [hk, InfoAt]

theorem infoAt_append_iff {k : String} {i : LimiterInfo} :
    InfoAt (recorded.insert q (recorded.get q [] ++ [info])) k i ↔
      InfoAt recorded k i ∨ (k = q ∧ i = info) := by
  rw [infoAt_insert_iff, List.mem_append, mem_get_iff, List.mem_singleton]
  by_cases hk : k = q
  · subst hk
    simp
  · simp [hk]

theorem listed_append_iff {k url : String} :
    Listed (recorded.insert q (recorded.get q [] ++ [info])) k url ↔
      Listed recorded k url ∨ (k = q ∧ url = info.url) := by
  constructor
  · rintro ⟨i, hi, rfl⟩
    rcases infoAt_append_iff.mp hi with hi | ⟨rfl, rfl⟩
    · exact Or.inl ⟨i, hi, rfl⟩
    · exact Or.inr ⟨rfl, rfl⟩
  · rintro (⟨i, hi, rfl⟩ | ⟨rfl, rfl⟩)
    · exact ⟨i, infoAt_append_iff.mpr (Or.inl hi), rfl⟩
    · exact ⟨info, infoAt_append_iff.mpr (Or.inr ⟨rfl, rfl⟩), rfl⟩

theorem infoAt_erase_iff {k : String} {i : LimiterInfo} :
    InfoAt (recorded.erase q) k i ↔ k ≠ q ∧ InfoAt recorded k i := by
  simp only [InfoAt, GoMap.lookup_erase_eq_some_iff, and_assoc, exists_and_left]

theorem listed_erase_iff {k url : String} :
    Listed (recorded.erase q) k url ↔ k ≠ q ∧ Listed recorded k url := by
  simp only [Listed, infoAt_erase_iff, and_assoc, exists_and_left]

/-- The urls of an edited list are the old ones. -/
theorem map_url_setInfo (apiPath : String) (init speed : Int) (infos : List LimiterInfo) :
    (setInfo apiPath init speed infos).map LimiterInfo.url = infos.map LimiterInfo.url := by
  induction infos with
  | nil => rfl
  | cons head infos ih =>
      rw [setInfo]
      split
      · rfl
      · rw [List.map_cons, List.map_cons, ih]

theorem lookup_setInfos (apiPath : String) (init speed : Int) (k : String) :
    (setInfos recorded q apiPath init speed).lookup k =
      if k = q then (recorded.lookup q).map (setInfo apiPath init speed)
      else recorded.lookup k := by
  rw [setInfos]
  cases hq : recorded.lookup q with
  | none =>
      by_cases hk : k = q
      · rw [if_pos hk, hk, hq]
        rfl
      · rw [if_neg hk]
  | some infos =>
      dsimp only
      rw [GoMap.lookup_insert_eq]
      rfl

theorem map_url_setInfos (apiPath : String) (init speed : Int) (k : String) :
    ((setInfos recorded q apiPath init speed).lookup k).map (List.map LimiterInfo.url) =
      (recorded.lookup k).map (List.map LimiterInfo.url) := by
  rw [lookup_setInfos]
  by_cases hk : k = q
  · rw [if_pos hk, hk, Option.map_map]
    cases recorded.lookup q with
    | none => rfl
    | some infos => exact congrArg some (map_url_setInfo apiPath init speed infos)
  · rw [if_neg hk]

theorem listed_iff_map {k url : String} :
    Listed recorded k url ↔
      ∃ urls, (recorded.lookup k).map (List.map LimiterInfo.url) = some urls ∧ url ∈ urls := by
  constructor
  · rintro ⟨i, ⟨infos, hinfos, hi⟩, rfl⟩
    exact ⟨infos.map LimiterInfo.url, by rw [hinfos]; rfl, List.mem_map_of_mem hi⟩
  · rintro ⟨urls, hurls, hmem⟩
    obtain ⟨infos, hinfos, rfl⟩ := Option.map_eq_some_iff.mp hurls
    obtain ⟨i, hi, rfl⟩ := List.mem_map.mp hmem
    exact ⟨i, ⟨infos, hinfos, hi⟩, rfl⟩

theorem listed_setInfos_iff {apiPath : String} {init speed : Int} {k url : String} :
    Listed (setInfos recorded q apiPath init speed) k url ↔ Listed recorded k url := by
  rw [listed_iff_map, listed_iff_map, map_url_setInfos]

/-- Among distinct urls the edit is exact: the info of the url has the new
rate, the others are kept. -/
theorem mem_setInfo_cases {apiPath : String} {init speed : Int} {infos : List LimiterInfo}
    {i : LimiterInfo} (hnodup : (infos.map LimiterInfo.url).Nodup)
    (hi : i ∈ setInfo apiPath init speed infos) :
    (i ∈ infos ∧ i.url ≠ apiPath) ∨ (i.url = apiPath ∧ i.init = init ∧ i.speed = speed) := by
  induction infos with
  | nil => cases hi
  | cons head infos ih =>
      rw [List.map_cons, List.nodup_cons] at hnodup
      rw [setInfo] at hi
      split at hi
      · next hurl =>
          rcases List.mem_cons.mp hi with rfl | hi
          · exact Or.inr ⟨hurl, rfl, rfl⟩
          · refine Or.inl ⟨List.mem_cons_of_mem _ hi, fun heq => hnodup.1 ?_⟩
            rw [hurl, ← heq]
            exact List.mem_map_of_mem hi
      · next hurl =>
          rcases List.mem_cons.mp hi with rfl | hi
          · exact Or.inl ⟨List.mem_cons_self, hurl⟩
          · exact (ih hnodup.2 hi).imp (fun h => ⟨List.mem_cons_of_mem _ h.1, h.2⟩) id

end Recording

/-! ## The two tables in step -/

/-- The limiters are those of the recorded complete paths, no complete path is
recorded twice, and limiters and infos have the rate last given. -/
structure Tallied (given : Given) (proxy : HttpReverseProxy) (p : HashPrefixer)
    (limiters : GoMap String QpsRateLimiter) : Prop where
  free : proxy.mu = .free
  router : proxy.prefixMapping = some p
  there : proxy.rateLimiters = some limiters
  routed : ∀ k url, Listed proxy.rateLimiterType k url → k ∈ p.routes
  keys : ∀ path, path ∈ limiters ↔
    ∃ k url, Listed proxy.rateLimiterType k url ∧ compeleteUrl k url = path
  once : ∀ k infos, proxy.rateLimiterType.lookup k = some infos →
    (infos.map LimiterInfo.url).Nodup
  apart : ∀ k k' url url', Listed proxy.rateLimiterType k url →
    Listed proxy.rateLimiterType k' url' → compeleteUrl k url = compeleteUrl k' url' → k = k'
  infos : ∀ k info, InfoAt proxy.rateLimiterType k info →
    given (compeleteUrl k info.url) = some (info.init, info.speed)
  rates : ∀ path limiter, limiters.lookup path = some limiter →
    ∃ init speed, given path = some (init, speed) ∧ limiter = limiterOf init speed

namespace Tallied

variable {given : Given} {proxy proxy' : HttpReverseProxy} {p : HashPrefixer}
  {limiters : GoMap String QpsRateLimiter} {q apiPath : String} {init speed : Int}

/-- A listed path has a limiter. -/
theorem mem_of_listed (h : Tallied given proxy p limiters) {k url : String}
    (hlisted : Listed proxy.rateLimiterType k url) : compeleteUrl k url ∈ limiters :=
  (h.keys _).mpr ⟨k, url, hlisted, rfl⟩

theorem nodup_get (h : Tallied given proxy p limiters) (k : String) :
    ((proxy.rateLimiterType.get k []).map LimiterInfo.url).Nodup := by
  cases hk : proxy.rateLimiterType.lookup k with
  | none =>
      rw [GoMap.get, hk]
      exact List.nodup_nil
  | some infos =>
      rw [GoMap.get_of_lookup hk]
      exact h.once k infos hk

/-- Giving a path its rate and storing a limiter of that rate. -/
theorem rates_insert (h : Tallied given proxy p limiters) (url path : String)
    (limiter : QpsRateLimiter)
    (hlimiter : (limiters.insert url (limiterOf init speed)).lookup path =
      some limiter) :
    ∃ init' speed',
      Function.update given url (some (init, speed)) path = some (init', speed') ∧
        limiter = limiterOf init' speed' := by
  rw [GoMap.lookup_insert_eq] at hlimiter
  split at hlimiter
  · next hpath =>
      cases hlimiter
      rw [hpath, Function.update_self]
      exact ⟨init, speed, rfl, rfl⟩
  · next hpath =>
      rw [Function.update_of_ne hpath]
      exact h.rates path limiter hlimiter

theorem sameRoutes (h : Tallied given proxy p limiters) (hsame : SameRoutes proxy proxy') :
    ∃ p', Tallied given proxy' p' limiters ∧ p'.routes = p.routes := by
  obtain ⟨pm, rfl, hroutes⟩ := hsame
  rw [h.router] at hroutes
  obtain ⟨p', rfl, heq⟩ := Option.map_eq_some_iff.mp hroutes
  refine ⟨p', ⟨h.free, rfl, h.there, fun k url hlisted => ?_, h.keys, h.once, h.apart, h.infos,
    h.rates⟩, heq⟩
  rw [heq]
  exact h.routed k url hlisted

/-- The tables of the routing do not matter. -/
theorem withRouting (h : Tallied given proxy p limiters) {p' : HashPrefixer}
    (hroutes : ∀ k ∈ p.routes, k ∈ p'.routes) (paths : GoMap String (List String))
    (balancerType : GoMap String String) (staticMapping : GoMap String Bool) :
    Tallied given { proxy with
      paths := paths, balancerType := balancerType, staticMapping := staticMapping,
      prefixMapping := some p' } p' limiters :=
  ⟨h.free, rfl, h.there, fun k url hlisted => hroutes k (h.routed k url hlisted), h.keys, h.once,
    h.apart, h.infos, h.rates⟩

/-- A new limiter on a path without one. -/
theorem withLimiter (h : Tallied given proxy p limiters) (hrouted : q ∈ p.routes)
    (hnew : compeleteUrl q apiPath ∉ limiters) :
    Tallied (Function.update given (compeleteUrl q apiPath) (some (init, speed)))
      (proxy.withLimiter limiters q ⟨apiPath, "qps", init, speed⟩) p
      (limiters.insert (compeleteUrl q apiPath) (limiterOf init speed)) where
  free := h.free
  router := h.router
  there := rfl
  routed k url hlisted := by
    rcases listed_append_iff.mp hlisted with hlisted | ⟨rfl, -⟩
    · exact h.routed k url hlisted
    · exact hrouted
  keys path := by
    rw [Finmap.mem_insert, h.keys]
    constructor
    · rintro (rfl | ⟨k, url, hlisted, hpath⟩)
      · exact ⟨q, apiPath, listed_append_iff.mpr (Or.inr ⟨rfl, rfl⟩), rfl⟩
      · exact ⟨k, url, listed_append_iff.mpr (Or.inl hlisted), hpath⟩
    · rintro ⟨k, url, hlisted, hpath⟩
      rcases listed_append_iff.mp hlisted with hlisted | ⟨rfl, rfl⟩
      · exact Or.inr ⟨k, url, hlisted, hpath⟩
      · exact Or.inl hpath.symm
  once k infos hinfos := by
    rw [HttpReverseProxy.withLimiter] at hinfos
    dsimp only at hinfos
    rw [GoMap.lookup_insert_eq] at hinfos
    split at hinfos
    · cases hinfos
      rw [List.map_append, List.map_singleton, List.nodup_append_comm, List.singleton_append,
        List.nodup_cons]
      constructor
      · -- the path had no limiter, so no info of it was recorded
        intro hmem
        obtain ⟨i, hi, hurl⟩ := List.mem_map.mp hmem
        exact hnew (h.mem_of_listed ⟨i, mem_get_iff.mp hi, hurl⟩)
      · exact h.nodup_get q
    · exact h.once k infos hinfos
  -- only the new pair is of interest: its path was not a key
  apart k k' url url' hlisted hlisted' hpath := by
    rcases listed_append_iff.mp hlisted with hold | ⟨rfl, rfl⟩
    · rcases listed_append_iff.mp hlisted' with hold' | ⟨rfl, rfl⟩
      · exact h.apart k k' url url' hold hold' hpath
      · exact absurd (hpath ▸ h.mem_of_listed hold) hnew
    · rcases listed_append_iff.mp hlisted' with hold' | ⟨rfl, rfl⟩
      · exact absurd (hpath ▸ h.mem_of_listed hold') hnew
      · rfl
  infos k info hinfo := by
    rcases infoAt_append_iff.mp hinfo with hinfo | ⟨rfl, rfl⟩
    · have hold := h.mem_of_listed ⟨info, hinfo, rfl⟩
      have hne : compeleteUrl k info.url ≠ compeleteUrl q apiPath := fun heq =>
        hnew (by rwa [← heq])
      rw [Function.update_of_ne hne]
      exact h.infos k info hinfo
    · exact Function.update_self _ _ _
  rates := h.rates_insert (compeleteUrl q apiPath)

/-- A new rate for the limiter of a listed url. -/
theorem withRate (h : Tallied given proxy p limiters) {limiter : QpsRateLimiter}
    (hlimiter : limiters.lookup (compeleteUrl q apiPath) = some limiter)
    (hlisted : Listed proxy.rateLimiterType q apiPath) :
    Tallied (Function.update given (compeleteUrl q apiPath) (some (init, speed)))
      (proxy.withRate limiters limiter q apiPath init speed) p
      (limiters.insert (compeleteUrl q apiPath) (limiterOf init speed)) where
  free := h.free
  router := h.router
  there := by
    obtain ⟨init', speed', -, rfl⟩ := h.rates _ limiter hlimiter
    rfl
  routed k url hold := h.routed k url (listed_setInfos_iff.mp hold)
  keys path := by
    have hmem : path = compeleteUrl q apiPath → path ∈ limiters := by
      rintro rfl
      exact Finmap.mem_iff.mpr ⟨limiter, hlimiter⟩
    rw [Finmap.mem_insert, or_iff_right_of_imp hmem, h.keys]
    exact exists_congr fun k => exists_congr fun url =>
      and_congr_left fun _ => listed_setInfos_iff.symm
  once k infos hinfos := by
    have hold : (setInfos proxy.rateLimiterType q apiPath init speed).lookup k = some infos :=
      hinfos
    have hurls : ((setInfos proxy.rateLimiterType q apiPath init speed).lookup k).map _ = _ :=
      map_url_setInfos apiPath init speed k
    rw [hold, Option.map_some, eq_comm, Option.map_eq_some_iff] at hurls
    obtain ⟨infos', hinfos', hurls⟩ := hurls
    rw [← hurls]
    exact h.once k infos' hinfos'
  apart k k' url url' hold hold' :=
    h.apart k k' url url' (listed_setInfos_iff.mp hold) (listed_setInfos_iff.mp hold')
  infos k info hinfo := by
    obtain ⟨infos, hinfos, hmem⟩ := hinfo
    have hlookup : (setInfos proxy.rateLimiterType q apiPath init speed).lookup k = some infos :=
      hinfos
    rw [lookup_setInfos] at hlookup
    split at hlookup
    · next hk =>
        subst hk
        -- under the prefix the first info of the path is edited, the others keep theirs
        obtain ⟨old, hold, rfl⟩ := Option.map_eq_some_iff.mp hlookup
        rcases mem_setInfo_cases (h.once k old hold) hmem with ⟨hmem, hurl⟩ | ⟨hurl, hinit, hspeed⟩
        · rw [Function.update_of_ne fun heq => hurl (compeleteUrl_injective k heq)]
          exact h.infos k info ⟨old, hold, hmem⟩
        · rw [hurl, Function.update_self, hinit, hspeed]
    · next hk =>
        -- another prefix does not record this complete path
        have hother : compeleteUrl k info.url ≠ compeleteUrl q apiPath := fun heq =>
          hk (h.apart k q _ _ ⟨info, ⟨infos, hlookup, hmem⟩, rfl⟩ hlisted heq)
        rw [Function.update_of_ne hother]
        exact h.infos k info ⟨infos, hlookup, hmem⟩
  rates := h.rates_insert (compeleteUrl q apiPath)

/-- A prefix goes whose only complete path, if it has one, is the prefix
itself: that is the only limiter which goes with it. -/
theorem withoutPrefix (h : Tallied given proxy p limiters)
    (hinside : ∀ url, Listed proxy.rateLimiterType q url → compeleteUrl q url = q)
    (hown : q ∈ limiters → ∃ url, Listed proxy.rateLimiterType q url) :
    Tallied given (proxy.withoutPrefix p q) (p.remove q) (limiters.erase q) where
  free := h.free
  router := rfl
  there := by
    show proxy.rateLimiters.map _ = _
    rw [h.there]
    rfl
  routed k url hlisted := by
    obtain ⟨hk, hlisted⟩ := listed_erase_iff.mp hlisted
    rw [HashPrefixer.routes_remove, Finmap.mem_erase]
    exact ⟨hk, h.routed k url hlisted⟩
  keys path := by
    rw [Finmap.mem_erase, h.keys]
    constructor
    · rintro ⟨hpath, k, url, hlisted, rfl⟩
      refine ⟨k, url, listed_erase_iff.mpr ⟨?_, hlisted⟩, rfl⟩
      -- a limiter recorded under `q` has the key `q`, which is the one that is erased
      rintro rfl
      exact hpath (hinside url hlisted)
    · rintro ⟨k, url, hlisted, rfl⟩
      obtain ⟨hk, hlisted⟩ := listed_erase_iff.mp hlisted
      refine ⟨fun heq => hk ?_, k, url, hlisted, rfl⟩
      obtain ⟨url', hlisted'⟩ := hown (heq ▸ h.mem_of_listed hlisted)
      exact h.apart k q url url' hlisted hlisted' (heq.trans (hinside url' hlisted').symm)
  once k infos hinfos := h.once k infos (GoMap.lookup_erase_eq_some_iff.mp hinfos).2
  apart k k' url url' hlisted hlisted' :=
    h.apart k k' url url' (listed_erase_iff.mp hlisted).2 (listed_erase_iff.mp hlisted').2
  infos k info hinfo := h.infos k info (infoAt_erase_iff.mp hinfo).2
  rates path limiter hlimiter :=
    h.rates path limiter (GoMap.lookup_erase_eq_some_iff.mp hlimiter).2

end Tallied

theorem tallied_newHttpReverseProxy {args : HttpProxyArgs} {shutdown : Nat}
    {proxy : HttpReverseProxy} (h : newHttpReverseProxy args shutdown = .ok proxy) :
    ∃ p limiters, Tallied (fun _ => none) proxy p limiters := by
  have hmirrored := mirrored_newHttpReverseProxy h
  obtain ⟨p, hp⟩ := hmirrored.mirrors
  have hnone : ∀ k info, ¬ InfoAt proxy.rateLimiterType k info := by
    rintro k info ⟨infos, hinfos, -⟩
    rw [hmirrored.infos] at hinfos
    cases hinfos
  refine ⟨p, ∅, ⟨hmirrored.free, hp.router, hmirrored.limiters, ?_, ?_, ?_, ?_, ?_, ?_⟩⟩
  · rintro k url ⟨info, hinfo, -⟩
    exact absurd hinfo (hnone k info)
  · intro path
    refine ⟨fun hmem => absurd hmem Finmap.notMem_empty, ?_⟩
    rintro ⟨k, url, ⟨info, hinfo, -⟩, -⟩
    exact absurd hinfo (hnone k info)
  · intro k infos hinfos
    rw [hmirrored.infos] at hinfos
    cases hinfos
  · rintro k k' url url' ⟨info, hinfo, -⟩
    exact absurd hinfo (hnone k info)
  · intro k info hinfo
    exact absurd hinfo (hnone k info)
  · intro path limiter hlimiter
    cases hlimiter

/-! ## Runs -/

/-- What reaches the limiters of a proxy. -/
inductive LimiterEvent
  | addPrefix (prefixPath algo : String) (hosts : List String) (isStatic : Bool)
  | removePrefix (prefixPath : String)
  | changeLb (prefixPath lb : String)
  | request (peerAvailable : Bool) (allow : QpsRateLimiter → Bool) (r : Utils.Request)
  | firstRequest (peerAvailable : Bool) (allow : QpsRateLimiter → Bool) (r : Utils.Request)
      (prefixPath apiPath : String)
  | setRateLimit (prefixPath apiPath limiterType : String) (init speed : Int)

/-- A proxy with the history of its limiters. -/
structure Ledger where
  proxy : HttpReverseProxy
  given : Given

/-- One event, however it ends.  A request makes the limiter it needs, and
`SetRateLimit` is called on paths that have one. -/
inductive LimiterStep : Ledger → LimiterEvent → Ledger → Prop
  | addPrefix (s : Ledger) (prefixPath algo : String) (hosts : List String) (isStatic : Bool) :
      LimiterStep s (.addPrefix prefixPath algo hosts isStatic)
        { s with proxy := memory (EStateM.run
            (HttpReverseProxy.addPrefix prefixPath algo hosts isStatic) s.proxy) }
  | removePrefix (s : Ledger) (prefixPath : String) :
      LimiterStep s (.removePrefix prefixPath)
        { s with proxy := memory (EStateM.run
            (HttpReverseProxy.removePrefix prefixPath) s.proxy) }
  | changeLb (s : Ledger) (prefixPath lb : String) (hlb : Supported lb) :
      LimiterStep s (.changeLb prefixPath lb)
        { s with proxy := memory (EStateM.run
            (HttpReverseProxy.changeLb prefixPath lb) s.proxy) }
  | request (s : Ledger) (peerAvailable : Bool) (allow : QpsRateLimiter → Bool)
      (r : Utils.Request) (hneeds : ¬ NeedsLimiter s.proxy peerAvailable r) :
      LimiterStep s (.request peerAvailable allow r)
        { s with proxy := memory (EStateM.run (serveHTTP peerAvailable allow r) s.proxy) }
  | firstRequest (s : Ledger) (peerAvailable : Bool) (allow : QpsRateLimiter → Bool)
      (r : Utils.Request) (prefixPath apiPath : String)
      (hneeds : NeedsLimiterAt s.proxy peerAvailable r prefixPath apiPath) :
      LimiterStep s (.firstRequest peerAvailable allow r prefixPath apiPath)
        { proxy := memory (EStateM.run (serveHTTP peerAvailable allow r) s.proxy)
          given := Function.update s.given (compeleteUrl prefixPath apiPath) (some (inf, inf)) }
  | setRateLimit (s : Ledger) (prefixPath apiPath limiterType : String) (init speed : Int)
      {limiters : GoMap String QpsRateLimiter} {limiter : QpsRateLimiter}
      (hl : s.proxy.rateLimiters = some limiters)
      (hlimiter : limiters.lookup (compeleteUrl prefixPath apiPath) = some limiter) :
      LimiterStep s (.setRateLimit prefixPath apiPath limiterType init speed)
        { proxy := memory (EStateM.run
            (HttpReverseProxy.setRateLimit prefixPath apiPath limiterType init speed) s.proxy)
          given := Function.update s.given (compeleteUrl prefixPath apiPath)
            (some (init, speed)) }

/-- A prefix can go: the one limiter that goes with it is the one of its own
path, and that is the only one recorded under it. -/
def LeavesNoLimiter (proxy : HttpReverseProxy) (q : String) : Prop :=
  (∀ url, Listed proxy.rateLimiterType q url → compeleteUrl q url = q) ∧
  ∀ limiters, proxy.rateLimiters = some limiters → q ∈ limiters →
    ∃ url, Listed proxy.rateLimiterType q url

/-- What an event needs to keep the limiters and their infos in step. -/
def LimiterEvent.KeepsStep (proxy : HttpReverseProxy) : LimiterEvent → Prop
  | .removePrefix prefixPath => LeavesNoLimiter proxy prefixPath
  | .changeLb prefixPath _ =>
      (proxy.balancerOf prefixPath).isSome → LeavesNoLimiter proxy prefixPath
  | .setRateLimit prefixPath apiPath _ _ speed =>
      speed ≠ 0 ∧ Listed proxy.rateLimiterType prefixPath apiPath
  | _ => True

namespace Tallied

variable {given : Given} {proxy : HttpReverseProxy} {p : HashPrefixer}
  {limiters : GoMap String QpsRateLimiter} {q : String}

/-- Adding a prefix, however it ends, leaves the limiters alone. -/
theorem addPrefix (h : Tallied given proxy p limiters) (algo : String) (hosts : List String)
    (isStatic : Bool) : ∃ p', Tallied given
      (memory (EStateM.run (HttpReverseProxy.addPrefix q algo hosts isStatic) proxy)) p'
      limiters := by
  by_cases hold : q ∈ p.mapping
  · rw [run_addPrefix_routed h.free h.router algo hosts isStatic hold]
    exact ⟨p, h⟩
  · rw [run_addPrefix h.free h.router algo hosts isStatic hold]
    cases build algo hosts with
    | ok b =>
        refine ⟨_, h.withRouting (fun k hk => ?_) _ _ _⟩
        rw [HashPrefixer.routes_insert, Finmap.mem_insert]
        exact Or.inr hk
    | error e =>
        exact ⟨p, h.free, h.router, h.there, h.routed, h.keys, h.once, h.apart, h.infos, h.rates⟩

theorem changeLb (h : Tallied given proxy p limiters) (lb : String)
    (hremovable : (proxy.balancerOf q).isSome → LeavesNoLimiter proxy q) :
    ∃ p' limiters', Tallied given
      (memory (EStateM.run (HttpReverseProxy.changeLb q lb) proxy)) p' limiters' := by
  cases hb : p.getBalancer q with
  | none =>
      rw [HttpReverseProxy.changeLb, EStateM.run_bind, run_getBalancer h.router, hb]
      exact ⟨p, limiters, h⟩
  | some b =>
      obtain ⟨hinside, hown⟩ := hremovable (by rw [balancerOf_eq h.router, hb]; rfl)
      rw [run_changeLb h.free h.router hb]
      obtain ⟨p', h'⟩ := (h.withoutPrefix hinside (hown limiters h.there)).addPrefix lb b.hosts
        (proxy.staticMapping.get q false)
      exact ⟨p', _, h'⟩

/-- The first request on a path makes its limiter. -/
theorem firstRequest (h : Tallied given proxy p limiters) {peerAvailable : Bool}
    {r : Utils.Request} {apiPath : String} (allow : QpsRateLimiter → Bool)
    (hneeds : NeedsLimiterAt proxy peerAvailable r q apiPath) :
    ∃ p' limiters', Tallied (Function.update given (compeleteUrl q apiPath) (some (inf, inf)))
      (memory (EStateM.run (serveHTTP peerAvailable allow r) proxy)) p' limiters' := by
  obtain ⟨proxy₁, hsame, hmem⟩ := memory_serveHTTP_of_needs allow hneeds
  obtain ⟨p₁, h₁, hroutes⟩ := h.sameRoutes hsame
  obtain ⟨-, -, -, ⟨p₂, p', realPath, hp, hmap⟩, -, hnone⟩ := hneeds
  obtain rfl : p = p₂ := Option.some.inj (h.router.symm.trans hp)
  have hrouted : q ∈ p₁.routes := by
    rw [hroutes, p.mem_routes]
    exact HashPrefixer.mem_of_mappingPath hmap
  rw [h.there, Option.bind_some] at hnone
  rw [hmem, run_createRateLimiter h₁.free h₁.there (by decide)]
  exact ⟨p₁, _, h₁.withLimiter hrouted (Finmap.lookup_eq_none.mp hnone)⟩

end Tallied

/-- An event that meets its condition keeps the tables in step. -/
theorem LimiterStep.tallied {s s' : Ledger} {event : LimiterEvent}
    (hstep : LimiterStep s event s') (hkeeps : event.KeepsStep s.proxy)
    (h : ∃ p limiters, Tallied s.given s.proxy p limiters) :
    ∃ p limiters, Tallied s'.given s'.proxy p limiters := by
  obtain ⟨p, limiters, h⟩ := h
  cases hstep with
  | addPrefix prefixPath algo hosts isStatic =>
      obtain ⟨p', h'⟩ := h.addPrefix algo hosts isStatic
      exact ⟨p', limiters, h'⟩
  | removePrefix prefixPath =>
      obtain ⟨hinside, hown⟩ := hkeeps
      rw [run_removePrefix h.free h.router]
      exact ⟨_, _, h.withoutPrefix hinside (hown limiters h.there)⟩
  | changeLb prefixPath lb hlb => exact h.changeLb lb hkeeps
  | request peerAvailable allow r hneeds =>
      obtain ⟨p', h', -⟩ := h.sameRoutes (serveHTTP_frame allow hneeds)
      exact ⟨p', limiters, h'⟩
  | firstRequest peerAvailable allow r prefixPath apiPath hneeds =>
      exact h.firstRequest allow hneeds
  | setRateLimit prefixPath apiPath limiterType init speed hl hlimiter =>
      obtain ⟨hspeed, hlisted⟩ := hkeeps
      cases h.there.symm.trans hl
      rw [run_setRateLimit h.free h.there hlimiter, if_neg hspeed]
      exact ⟨p, _, h.withRate hlimiter hlisted⟩

/-- The limiters are those of the infos recorded under routed prefixes, no
prefix lists a url twice, and infos and limiters have the rate last given. -/
structure LimitersRecorded (s : Ledger) : Prop where
  keys : ∃ p limiters, s.proxy.prefixMapping = some p ∧ s.proxy.rateLimiters = some limiters ∧
    ∀ path, path ∈ limiters ↔ ∃ k ∈ p.mapping, ∃ info,
      InfoAt s.proxy.rateLimiterType k info ∧ compeleteUrl k info.url = path
  once : ∀ k infos, s.proxy.rateLimiterType.lookup k = some infos →
    (infos.map LimiterInfo.url).Nodup
  infos : ∀ k info, InfoAt s.proxy.rateLimiterType k info →
    s.given (compeleteUrl k info.url) = some (info.init, info.speed)
  rates : ∀ limiters path limiter, s.proxy.rateLimiters = some limiters →
    limiters.lookup path = some limiter →
    ∃ init speed, s.given path = some (init, speed) ∧ limiter = limiterOf init speed

theorem Tallied.limitersRecorded {s : Ledger} {p : HashPrefixer}
    {limiters : GoMap String QpsRateLimiter} (h : Tallied s.given s.proxy p limiters) :
    LimitersRecorded s where
  keys := by
    refine ⟨p, limiters, h.router, h.there, fun path => ?_⟩
    rw [h.keys]
    constructor
    · rintro ⟨k, url, ⟨info, hinfo, rfl⟩, hpath⟩
      exact ⟨k, (p.mem_routes k).mp (h.routed k _ ⟨info, hinfo, rfl⟩), info, hinfo, hpath⟩
    · rintro ⟨k, -, info, hinfo, hpath⟩
      exact ⟨k, info.url, ⟨info, hinfo, rfl⟩, hpath⟩
  once := h.once
  infos := h.infos
  rates limiters' path limiter hl hlimiter := by
    cases h.there.symm.trans hl
    exact h.rates path limiter hlimiter

/-- An event that meets its condition. -/
def KeepingStep (s : Ledger) (event : LimiterEvent) (s' : Ledger) : Prop :=
  event.KeepsStep s.proxy ∧ LimiterStep s event s'

/-- In every run on a new proxy whose removals and settings meet their
conditions the limiters and their recorded infos are in step. -/
theorem limiters_in_step {args : HttpProxyArgs} {shutdown : Nat} {start : HttpReverseProxy}
    {events : List LimiterEvent} {s : Ledger}
    (hnew : newHttpReverseProxy args shutdown = .ok start)
    (hrun : Run KeepingStep ⟨start, fun _ => none⟩ events s) : LimitersRecorded s := by
  obtain ⟨p, limiters, h⟩ :=
    Run.invariant (P := fun s : Ledger => ∃ p limiters, Tallied s.given s.proxy p limiters)
      (fun _ _ _ h hstep => hstep.2.tallied hstep.1 h) hrun (tallied_newHttpReverseProxy hnew)
  exact h.limitersRecorded

/-! ## A limiter that stays -/

/-- A request to `/api/users`. -/
def usersRequest : Utils.Request := ⟨"/api/users", "10.0.0.9:5000", fun _ => ""⟩

/-- A prefix is registered on a new proxy and the first request on `/api/users`
arrives. -/
theorem run_first_request : ∃ start proxy p,
    newHttpReverseProxy ⟨8080, typeHashPrefixer, []⟩ 0 = .ok start ∧
    EStateM.run (HttpReverseProxy.addPrefix "/api" "round-robin" ["10.0.0.1:80"] false) start =
      .ok () proxy ∧
    NeedsLimiterAt proxy true usersRequest "/api" "/users" ∧
    proxy.prefixMapping = some p ∧ proxy.rateLimiters = some ∅ ∧ proxy.rateLimiterType = ∅ := by
  refine ⟨_, _, _, rfl, rfl, ⟨rfl, rfl, ?_, ⟨_, _, _, rfl, rfl⟩, rfl, rfl⟩, rfl, rfl, rfl⟩
  rfl

theorem limiters_in_step_first_request : ∃ start s,
    newHttpReverseProxy ⟨8080, typeHashPrefixer, []⟩ 0 = .ok start ∧
    Run KeepingStep ⟨start, fun _ => none⟩
      [.addPrefix "/api" "round-robin" ["10.0.0.1:80"] false,
        .firstRequest true (fun _ => true) usersRequest "/api" "/users"] s ∧
    LimitersRecorded s := by
  obtain ⟨start, proxy, p, hnew, hadd, hneeds, -⟩ := run_first_request
  have hmem : memory (EStateM.run (HttpReverseProxy.addPrefix "/api" "round-robin"
      ["10.0.0.1:80"] false) start) = proxy := by
    rw [hadd]
    rfl
  obtain ⟨s, hrun⟩ : ∃ s, Run KeepingStep ⟨start, fun _ => none⟩
      [.addPrefix "/api" "round-robin" ["10.0.0.1:80"] false,
        .firstRequest true (fun _ => true) usersRequest "/api" "/users"] s := by
    refine ⟨_, .cons ⟨trivial, .addPrefix _ _ _ _ _⟩
      (.single ⟨trivial, .firstRequest _ _ _ _ _ _ ?_⟩)⟩
    rw [hmem]
    exact hneeds
  exact ⟨start, s, hnew, hrun, limiters_in_step hnew hrun⟩

/-- The prefix is removed after that request: the limiter of `/api/users` stays
without an info. -/
theorem limiter_left_behind : ¬ ∀ (args : HttpProxyArgs) (shutdown : Nat)
    (start : HttpReverseProxy) (events : List LimiterEvent) (s : Ledger),
    newHttpReverseProxy args shutdown = .ok start →
    Run LimiterStep ⟨start, fun _ => none⟩ events s → LimitersRecorded s := by
  intro hclaim
  obtain ⟨start, proxy, p, hnew, hadd, hneeds, hp, hlimiters, hinfos⟩ := run_first_request
  have hfree : proxy.mu = .free :=
    (RoutingCall.run_sound (.addPrefix _ _ _ _) (sound_newHttpReverseProxy hnew) hadd).free
  have hmem : memory (EStateM.run (HttpReverseProxy.addPrefix "/api" "round-robin"
      ["10.0.0.1:80"] false) start) = proxy := by
    rw [hadd]
    rfl
  -- what the request leaves
  obtain ⟨proxy₁, ⟨pm, hsame, hroutes⟩, hserve⟩ :=
    memory_serveHTTP_of_needs (fun _ => true) hneeds
  rw [hp] at hroutes
  obtain ⟨p₁, rfl, -⟩ := Option.map_eq_some_iff.mp hroutes
  have hfree₁ : proxy₁.mu = .free := by rw [hsame]; exact hfree
  have hlimiters₁ : proxy₁.rateLimiters = some ∅ := by rw [hsame]; exact hlimiters
  have hinfos₁ : proxy₁.rateLimiterType = ∅ := by rw [hsame]; exact hinfos
  have hrouter₁ : proxy₁.prefixMapping = some p₁ := by rw [hsame]
  rw [run_createRateLimiter hfree₁ hlimiters₁ (by decide), memory_ok] at hserve
  -- what the removal leaves
  have hrun : Run LimiterStep ⟨start, fun _ => none⟩
      [.addPrefix "/api" "round-robin" ["10.0.0.1:80"] false,
        .firstRequest true (fun _ => true) usersRequest "/api" "/users", .removePrefix "/api"] _ :=
    .cons (.addPrefix _ _ _ _ _) (.cons (.firstRequest _ _ _ _ _ _ (by rw [hmem]; exact hneeds))
      (.single (.removePrefix _ _)))
  obtain ⟨p', limiters, -, hl, hkeys⟩ := (hclaim _ 0 start _ _ hnew hrun).keys
  dsimp only at hl hkeys
  have hremove : EStateM.run (HttpReverseProxy.removePrefix "/api")
      (proxy₁.withLimiter ∅ "/api" ⟨"/users", "qps", inf, inf⟩) = .ok () _ :=
    run_removePrefix hfree₁ hrouter₁
  rw [hmem, hserve, hremove, memory_ok] at hl hkeys
  cases hl
  -- the limiter of `/api/users` is still a key, and no info is left to record it
  obtain ⟨k, -, info, hinfo, -⟩ := (hkeys "/api/users").mp (by decide +kernel)
  obtain ⟨hk, hinfo⟩ := infoAt_erase_iff.mp hinfo
  rcases infoAt_append_iff.mp hinfo with ⟨infos, hlookup, -⟩ | ⟨heq, -⟩
  · rw [hinfos₁] at hlookup
    cases hlookup
  · exact hk heq

end Proxy
end VermouthGateway
