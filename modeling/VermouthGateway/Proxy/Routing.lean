import VermouthGateway.Foundation.LongestMatch
import VermouthGateway.Go.Segments
import VermouthGateway.Proxy.HashPrefixer

/-!
# The longest registered prefix

`MappingPath` reads a path segment by segment and keeps the last registered
prefix it has seen with the offset where it ends.  This is the longest-prefix
match of `Foundation` over the segments of the path.

* `RoutesTo` says where a path belongs: the longest registered prefix that the
  path is or continues with a slash, the root when there is none.
* `matchPrefix_eq`: the loop computes the longest match, and its offset is the
  length of what it found.
* `matched_cases`: the prefix and the rest that `MappingPath` settles on.
* `pathNotFound_iff`: when it finds none.
* `routes_longest_prefix`: what it answers.
-/

namespace VermouthGateway
namespace Proxy

open Go Balancing LongestMatch

namespace HashPrefixer

variable {p : HashPrefixer} {path q : String}

/-- A registered prefix that the path is, or continues with a slash. -/
structure Candidate (p : HashPrefixer) (path q : String) : Prop where
  registered : q ∈ p.mapping
  nonempty : q ≠ ""
  leads : path = q ∨ ∃ rest, path = q ++ "/" ++ rest

/-- No candidate is longer. -/
structure Longest (p : HashPrefixer) (path q : String) : Prop extends Candidate p path q where
  longest : ∀ q', Candidate p path q' → q'.length ≤ q.length

/-- The prefix a path belongs to. -/
def RoutesTo (p : HashPrefixer) (path q : String) : Prop :=
  Longest p path q ∨ q = "/" ∧ ∀ q', ¬ Candidate p path q'

/-- `nextPath` after some more segments. -/
def after (nextPath : String) (word : List String) : String :=
  word.foldl (fun nextPath v => nextPath ++ "/" ++ v) nextPath

/-- The registered prefixes that begin with `nextPath`, by the segments that
follow it. -/
def table (p : HashPrefixer) (nextPath : String) : Table String String :=
  fun word => if after nextPath word ∈ p.mapping then some (after nextPath word) else none

theorem table_after (p : HashPrefixer) (nextPath v : String) :
    (p.table nextPath).after v = p.table (nextPath ++ "/" ++ v) := rfl

/-- The offset of the loop is the length of what it has found. -/
theorem matchPrefix_eq (p : HashPrefixer) (vs : List String) (nextPath found : String) :
    let seen := (p.table nextPath []).getD found
    p.matchPrefix vs nextPath nextPath.length seen seen.length =
      (matchFrom (p.table nextPath) found vs,
        (matchFrom (p.table nextPath) found vs).length) := by
  -- over the segments left; what was read is `nextPath`, and it may be registered itself
  induction vs generalizing nextPath found with
  | nil => rfl
  | cons v vs ih =>
      dsimp only
      rw [matchFrom_cons, table_after, matchPrefix, ← ih]
      have hlength : nextPath.length + v.length + 1 = (nextPath ++ "/" ++ v).length := by
        rw [String.length_append, String.length_append]
        show _ = nextPath.length + 1 + v.length
        omega
      rw [hlength]
      have htable : p.table (nextPath ++ "/" ++ v) [] =
          if nextPath ++ "/" ++ v ∈ p.mapping then some (nextPath ++ "/" ++ v) else none := rfl
      rw [htable]
      split <;> rfl

theorem after_toList (nextPath : String) (word : List String) :
    (after nextPath word).toList =
      nextPath.toList ++ joinSegments '/' (word.map String.toList) := by
  induction word generalizing nextPath with
  | nil => simp [after]
  | cons v word ih =>
      have hstep : after nextPath (v :: word) = after (nextPath ++ "/" ++ v) word := rfl
      rw [hstep, ih]
      simp

theorem exists_toList (hslash : ∃ rest, path = "/" ++ rest) :
    ∃ rest, path.toList = '/' :: rest := by
  obtain ⟨rest, rfl⟩ := hslash
  rw [String.toList_append]
  exact ⟨rest.toList, rfl⟩

/-- The segments `MappingPath` reads of a path that starts with a slash. -/
theorem split_tail {rest : List Char} (hpath : path.toList = '/' :: rest) :
    (split path '/').tail = (splitChars '/' rest).map String.ofList := by
  rw [split, hpath]
  have hcut : splitChars '/' ('/' :: rest) = [] :: splitChars '/' rest := by
    rw [splitChars, if_pos rfl]
  rw [hcut]
  rfl

theorem map_toList_split_tail {rest : List Char} (hpath : path.toList = '/' :: rest) :
    (split path '/').tail.map String.toList = splitChars '/' rest := by
  rw [split_tail hpath, List.map_map]
  exact (List.map_congr_left fun cs _ => String.toList_ofList).trans (List.map_id _)

/-- Where a path leads, by strings and by characters. -/
theorem leads_iff {start : String} :
    Leads '/' start.toList path.toList ↔ path = start ∨ ∃ rest, path = start ++ "/" ++ rest := by
  have hslash : "/".toList = ['/'] := rfl
  refine or_congr String.toList_inj ⟨?_, ?_⟩
  · rintro ⟨rest, hpath⟩
    refine ⟨String.ofList rest, String.toList_inj.mp ?_⟩
    rw [hpath, String.toList_append, String.toList_append, hslash, String.toList_ofList,
      List.append_assoc]
    rfl
  · rintro ⟨rest, rfl⟩
    refine ⟨rest.toList, ?_⟩
    rw [String.toList_append, String.toList_append, hslash, List.append_assoc]
    rfl

theorem table_eq_some_iff {nextPath : String} {word : List String} :
    p.table nextPath word = some q ↔ q ∈ p.mapping ∧ after nextPath word = q := by
  rw [table]
  split
  · next hmem =>
      constructor
      · intro h
        cases h
        exact ⟨hmem, rfl⟩
      · rintro ⟨-, rfl⟩
        rfl
  · next hmem =>
      constructor
      · intro h
        cases h
      · rintro ⟨hq, rfl⟩
        exact absurd hq hmem

/-- The candidates are the registered joins of the first segments. -/
theorem candidate_iff {rest : List Char} (hpath : path.toList = '/' :: rest) :
    Candidate p path q ↔ q ≠ "" ∧
      ∃ word, word <+: (split path '/').tail ∧ p.table "" word = some q := by
  constructor
  · rintro ⟨hmem, hne, hleads⟩
    rw [← leads_iff, hpath] at hleads
    have hnil : q.toList ≠ [] := fun h => hne (String.toList_inj.mp h)
    obtain ⟨segments, hfirst, -, hjoin⟩ := exists_segments_of_leads hleads hnil
    refine ⟨hne, segments.map String.ofList, ?_, table_eq_some_iff.mpr ⟨hmem, ?_⟩⟩
    · rw [split_tail hpath]
      exact hfirst.map String.ofList
    · apply String.toList_inj.mp
      rw [after_toList, hjoin, List.map_map]
      exact congrArg (joinSegments '/')
        ((List.map_congr_left fun cs _ => String.toList_ofList).trans (List.map_id _))
  · rintro ⟨hne, word, hfirst, hword⟩
    obtain ⟨hmem, hafter⟩ := table_eq_some_iff.mp hword
    refine ⟨hmem, hne, leads_iff.mp ?_⟩
    have hsegments := hfirst.map String.toList
    rw [map_toList_split_tail hpath] at hsegments
    rw [hpath, ← hafter, after_toList]
    exact leads_joinSegments hsegments

/-- More segments make a longer prefix. -/
theorem length_after_le {word word' : List String} (h : word <+: word') :
    (after "" word).length ≤ (after "" word').length := by
  rw [← String.length_toList, ← String.length_toList, after_toList, after_toList]
  exact length_joinSegments_le (h.map String.toList)

/-- The prefix and the rest `MappingPath` settles on. -/
theorem matched_eq (p : HashPrefixer) (path : String) :
    let found := matchFrom (p.table "") "" (split path '/').tail
    p.matched path = (if found.length = 0 then "/" else found,
      String.ofList (path.toList.drop found.length)) := by
  have hseen : (p.table "" []).getD "" = "" := by
    rw [table]
    split <;> rfl
  have hloop := p.matchPrefix_eq (split path '/').tail "" ""
  rw [hseen] at hloop
  dsimp only at hloop ⊢
  rw [matched]
  have hempty : "".length = 0 := rfl
  rw [hempty] at hloop
  rw [hloop]

/-- What a match found is the longest candidate; the empty text is found when
there is none. -/
theorem matchFrom_longest {rest : List Char} (hpath : path.toList = '/' :: rest) :
    let found := matchFrom (p.table "") "" (split path '/').tail
    Longest p path found ∨ found = "" ∧ ∀ q', ¬ Candidate p path q' := by
  dsimp only
  rw [matchFrom]
  cases hmatch : longestMatch (p.table "") (split path '/').tail with
  | none =>
      refine Or.inr ⟨rfl, fun q' hq' => ?_⟩
      obtain ⟨-, word, hfirst, hword⟩ := (candidate_iff hpath).mp hq'
      have hnone := (longestMatch_eq_none_iff _ _).mp hmatch word hfirst
      rw [hword] at hnone
      cases hnone
  | some found =>
      obtain ⟨word, hfirst, hword, hlongest⟩ := (longestMatch_eq_some_iff _ _ _).mp hmatch
      have hall : ∀ q', Candidate p path q' → q'.length ≤ found.length := by
        intro q' hq'
        obtain ⟨-, other, hother, hentry⟩ := (candidate_iff hpath).mp hq'
        have hle := hlongest other hother (by rw [hentry]; rfl)
        rw [← (table_eq_some_iff.mp hword).2, ← (table_eq_some_iff.mp hentry).2]
        exact length_after_le (List.prefix_of_prefix_length_le hother hfirst hle)
      rw [Option.getD_some]
      by_cases hne : found = ""
      · -- only the empty text is registered along the path, and that is no candidate
        subst hne
        refine Or.inr ⟨rfl, fun q' hq' => hq'.nonempty ?_⟩
        exact String.length_eq_zero_iff.mp (Nat.le_zero.mp (hall q' hq'))
      · exact Or.inl ⟨(candidate_iff hpath).mpr ⟨hne, word, hfirst, hword⟩, hall⟩

theorem Candidate.begins (h : Candidate p path q) : q.toList <+: path.toList := by
  rcases leads_iff.mpr h.leads with hsame | ⟨more, hmore⟩
  · rw [hsame]
  · exact ⟨_, hmore.symm⟩

/-- `MappingPath` settles on the longest candidate and what follows it, and
without a candidate on the root and the whole path. -/
theorem matched_cases (p : HashPrefixer) {rest : List Char} (hpath : path.toList = '/' :: rest) :
    Longest p path (p.matched path).1 ∧ (p.matched path).1 ++ (p.matched path).2 = path ∨
      p.matched path = ("/", path) ∧ ∀ q', ¬ Candidate p path q' := by
  rw [p.matched_eq path]
  rcases matchFrom_longest (p := p) hpath with hlongest | ⟨hnone, hall⟩
  · generalize matchFrom (p.table "") "" (split path '/').tail = found at hlongest ⊢
    have hne : found.length ≠ 0 := fun h => hlongest.nonempty (String.length_eq_zero_iff.mp h)
    rw [if_neg hne]
    refine Or.inl ⟨hlongest, String.toList_inj.mp ?_⟩
    rw [String.toList_append, String.toList_ofList, ← String.length_toList]
    exact (List.prefix_append_drop hlongest.toCandidate.begins).symm
  · refine Or.inr ⟨?_, hall⟩
    rw [hnone]
    show ("/", String.ofList path.toList) = _
    rw [String.ofList_toList]

theorem matched_routesTo (p : HashPrefixer) {rest : List Char}
    (hpath : path.toList = '/' :: rest) : RoutesTo p path (p.matched path).1 := by
  rcases p.matched_cases hpath with ⟨hlongest, -⟩ | ⟨hroot, hall⟩
  · exact Or.inl hlongest
  · exact Or.inr ⟨congrArg Prod.fst hroot, hall⟩

/-- A path belongs to one prefix. -/
theorem RoutesTo.unique {q' : String} (h : RoutesTo p path q) (h' : RoutesTo p path q') :
    q' = q := by
  rcases h with h | ⟨rfl, hall⟩ <;> rcases h' with h' | ⟨rfl, hall'⟩
  · have hlength : q'.length = q.length :=
      Nat.le_antisymm (h.longest q' h'.toCandidate) (h'.longest q h.toCandidate)
    rw [← String.length_toList, ← String.length_toList] at hlength
    have hfirst := List.prefix_of_prefix_length_le h'.toCandidate.begins h.toCandidate.begins
      hlength.le
    exact String.toList_inj.mp (hfirst.eq_of_length hlength)
  · exact absurd h.toCandidate (hall' q)
  · exact absurd h'.toCandidate (hall q')
  · rfl

/-- A path on a registered prefix is found, whatever its balancer answers. -/
theorem ne_pathNotFound_of_mem {r : Utils.Request} {p' : HashPrefixer}
    (hmem : (p.matched path).1 ∈ p.mapping) :
    EStateM.run (mappingPath path r) p ≠ .ok (.error .pathNotFound) p' := by
  intro hrun
  obtain ⟨-, -, host, -, -, hout, -⟩ := run_mappingPath_answer hmem hrun
  cases host <;> cases hout

/-- A path is not found exactly when it has no candidate and the root is not
registered. -/
theorem pathNotFound_iff (p : HashPrefixer) (r : Utils.Request) {rest : List Char}
    (hpath : path.toList = '/' :: rest) :
    (∃ p', EStateM.run (mappingPath path r) p = .ok (.error .pathNotFound) p') ↔
      (∀ q', ¬ Candidate p path q') ∧ "/" ∉ p.mapping := by
  constructor
  · rintro ⟨p', hrun⟩
    have hmem : (p.matched path).1 ∉ p.mapping := fun hmem => ne_pathNotFound_of_mem hmem hrun
    rcases p.matched_cases hpath with ⟨hlongest, -⟩ | ⟨hroot, hall⟩
    · exact absurd hlongest.registered hmem
    · rw [hroot] at hmem
      exact ⟨hall, hmem⟩
  · rintro ⟨hall, hroot⟩
    refine ⟨p, run_mappingPath_unrouted ?_ r⟩
    rcases p.matched_cases hpath with ⟨hlongest, -⟩ | ⟨hmatched, -⟩
    · exact absurd hlongest.toCandidate (hall _)
    · rw [hmatched]
      exact hroot

/-- A host that the balancer of the prefix yields is put before the rest. -/
theorem run_mappingPath_host {r : Utils.Request} {b b' : Balancer} {host : String}
    (hb : p.getBalancer (p.matched path).1 = some b)
    (hbalance : EStateM.run (Balancer.balance "" (some r)) b = .ok (.ok host) b') :
    EStateM.run (mappingPath path r) p =
      .ok (.ok ((p.matched path).1, (p.matched path).2, host ++ (p.matched path).2))
        ⟨p.mapping.insert (p.matched path).1 b'⟩ := by
  have hmem : (p.matched path).1 ∈ p.mapping := Finmap.mem_iff.mpr ⟨b, hb⟩
  rw [run_mappingPath_routed hmem, run_withBalancer, hb]
  dsimp only
  rw [EStateM.run_bind, hbalance]
  rfl

/-- Every path that starts with a slash belongs to one prefix.  When its
balancer yields a host the path is mapped to this prefix, what follows it and
the host before what follows; and the path is not found exactly when it has no
candidate and the root is not registered. -/
theorem routes_longest_prefix (p : HashPrefixer) (r : Utils.Request) {path : String}
    (hslash : ∃ rest, path = "/" ++ rest) :
    ∃ q, RoutesTo p path q ∧ (∀ q', RoutesTo p path q' → q' = q) ∧
      (∀ b b' host, p.getBalancer q = some b →
        EStateM.run (Balancer.balance "" (some r)) b = .ok (.ok host) b' →
        ∃ apiPath, EStateM.run (mappingPath path r) p =
            .ok (.ok (q, apiPath, host ++ apiPath)) ⟨p.mapping.insert q b'⟩ ∧
          (q ≠ "/" → q ++ apiPath = path)) ∧
      ((∃ p', EStateM.run (mappingPath path r) p = .ok (.error .pathNotFound) p') ↔
        (∀ q', ¬ Candidate p path q') ∧ "/" ∉ p.mapping) := by
  obtain ⟨rest, hpath⟩ := exists_toList hslash
  refine ⟨(p.matched path).1, p.matched_routesTo hpath,
    fun q' => (p.matched_routesTo hpath).unique, ?_, p.pathNotFound_iff r hpath⟩
  intro b b' host hb hbalance
  refine ⟨(p.matched path).2, run_mappingPath_host hb hbalance, fun hne => ?_⟩
  rcases p.matched_cases hpath with ⟨-, happend⟩ | ⟨hroot, -⟩
  · exact happend
  · exact absurd (congrArg Prod.fst hroot) hne

/-- Two prefixes, one of which ends with a slash. -/
def apiRouter : HashPrefixer :=
  (newHashPrefixer.add "/api/" typeRoundRobin ["10.0.0.1"]).add
    "/api" typeRoundRobin ["10.0.0.2:8080"]

/-- A path with a doubled and a trailing slash. -/
theorem routes_longest_prefix_below :
    RoutesTo apiRouter "/api//users/" "/api/" ∧
      ∀ q, RoutesTo apiRouter "/api//users/" q → q = "/api/" := by
  have hmatched : apiRouter.matched "/api//users/" = ("/api/", "/users/") := by rfl
  have hpath : "/api//users/".toList = '/' :: "api//users/".toList := by rfl
  have hroutes := apiRouter.matched_routesTo hpath
  rw [hmatched] at hroutes
  obtain ⟨q, -, hunique, -⟩ := routes_longest_prefix apiRouter ⟨"/api//users/", "", fun _ => ""⟩
    ⟨"api//users/", rfl⟩
  obtain rfl := hunique _ hroutes
  exact ⟨hroutes, hunique⟩

theorem run_mappingPath_apiRouter : ∃ p',
    EStateM.run (mappingPath "/api/users" ⟨"/api/users", "", fun _ => ""⟩) apiRouter =
      .ok (.ok ("/api", "/users", "10.0.0.2:8080/users")) p' := by
  have hmatched : apiRouter.matched "/api/users" = ("/api", "/users") := by rfl
  have hfound : (apiRouter.matched "/api/users").1 ∈ apiRouter.mapping := by
    rw [hmatched]
    decide
  rw [run_mappingPath_routed hfound, hmatched]
  exact ⟨_, rfl⟩

end HashPrefixer
end Proxy
end VermouthGateway
