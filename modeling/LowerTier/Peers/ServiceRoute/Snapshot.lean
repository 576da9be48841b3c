import LowerTier.Peers.ServiceRoute.Store

/-!
# The index of a snapshot

`fromRoutes` groups the routes by their blocks and puts each group, sorted, into one of two
maps.  Whatever order the groups come in, a lookup finds the routes of the longest block
that contains the address, and nothing else.
-/

namespace LowerTier.Peers

open List ProofSupport

/-- The block is the longest one among the routes that contains the address. -/
@[mk_iff] structure LongestMatch (routes : List ServiceRoute) (address : IpAddr)
    (cidr : IpCidr) : Prop where
  present : ∃ route ∈ routes, route.cidr = cidr
  contains : cidr.contains address
  longest : ∀ route ∈ routes, route.cidr.contains address →
    route.cidr.networkLength ≤ cidr.networkLength

variable {address : IpAddr} {routes : List ServiceRoute}

theorem LongestMatch.unique {cidr cidr' : IpCidr} (h : LongestMatch routes address cidr)
    (h' : LongestMatch routes address cidr') : cidr = cidr' := by
  obtain ⟨route, hmem, rfl⟩ := h.present
  obtain ⟨route', hmem', rfl⟩ := h'.present
  have hle := h.longest route' hmem' h'.contains
  have hle' := h'.longest route hmem h.contains
  exact IpCidr.eq_of_contains (by omega) h.contains h'.contains

namespace ServiceRouteSnapshot

def routesOf (routes : List ServiceRoute) (cidr : IpCidr) : List ServiceRoute :=
  routes.filter (·.cidr = cidr)

/-- Each group has the routes of its block, and no group is empty. -/
def Groups (groups : KeyedMap IpCidr (List ServiceRoute)) (routes : List ServiceRoute) : Prop :=
  ∀ cidr, groups.lookup cidr =
    if routesOf routes cidr = [] then none else some (routesOf routes cidr)

variable {groups : KeyedMap IpCidr (List ServiceRoute)}

theorem Groups.addToGroup (h : Groups groups routes)
    (route : ServiceRoute) : Groups (addToGroup groups route) (routes ++ [route]) := by
  intro cidr
  have hold : (groups.lookup route.cidr).getD [] = routesOf routes route.cidr := by
    rw [h route.cidr]
    split
    · next hempty => simp [hempty]
    · rfl
  by_cases hcidr : cidr = route.cidr
  · subst hcidr
    rw [ServiceRouteSnapshot.addToGroup, AList.lookup_insert, hold]
    simp [routesOf]
  · have hsame : routesOf (routes ++ [route]) cidr = routesOf routes cidr := by
      simp [routesOf, Ne.symm hcidr]
    rw [ServiceRouteSnapshot.addToGroup, AList.lookup_insert_ne hcidr, h cidr, hsame]

theorem Groups.foldl
    {seen : List ServiceRoute} (h : Groups groups seen) (routes : List ServiceRoute) :
    Groups (routes.foldl ServiceRouteSnapshot.addToGroup groups) (seen ++ routes) := by
  induction routes generalizing groups seen with
  | nil => simpa using h
  | cons route routes ih => simpa using ih (h.addToGroup route)

theorem groups_grouped : Groups (grouped routes) routes := by
  have hempty : Groups ∅ [] := by
    intro cidr
    simp [routesOf]
  have hall := hempty.foldl routes
  rwa [nil_append] at hall

/-! ## The two maps -/

def lookup (snapshot : ServiceRouteSnapshot) : IpCidr → Option (List ServiceRoute)
  | .v4 block => snapshot.ipv4.lookup block
  | .v6 block => snapshot.ipv6.lookup block

variable {snapshot : ServiceRouteSnapshot}

theorem lookup_insertCandidates (cidr other : IpCidr) (candidates : List ServiceRoute) :
    (snapshot.insertCandidates cidr candidates).lookup other =
      if other = cidr then some candidates else snapshot.lookup other := by
  by_cases hother : other = cidr
  · subst hother
    rw [if_pos rfl]
    cases other <;> exact AList.lookup_insert _
  rw [if_neg hother]
  cases cidr with
  | v4 block =>
    cases other with
    | v4 other => exact AList.lookup_insert_ne fun hsame => hother (congrArg IpCidr.v4 hsame)
    | v6 other => rfl
  | v6 block =>
    cases other with
    | v4 other => rfl
    | v6 other => exact AList.lookup_insert_ne fun hsame => hother (congrArg IpCidr.v6 hsame)

variable (sort : List ServiceRoute → List ServiceRoute)

variable {cidr : IpCidr}

theorem lookup_foldl {groups : List (Sigma fun _ : IpCidr => List ServiceRoute)}
    (hnodup : groups.NodupKeys) :
    (groups.foldl (fun snapshot group => snapshot.insertCandidates group.1 (sort group.2))
        snapshot).lookup cidr =
      match groups.dlookup cidr with
      | some group => some (sort group)
      | none => snapshot.lookup cidr := by
  induction groups generalizing snapshot with
  | nil => rfl
  | cons group groups ih =>
    obtain ⟨hnew, hrest⟩ := nodupKeys_cons.mp hnodup
    rw [foldl_cons, ih hrest, lookup_insertCandidates]
    by_cases hcidr : cidr = group.1
    · subst hcidr
      have hnone : groups.dlookup group.1 = none := dlookup_eq_none.mpr hnew
      obtain ⟨key, routes⟩ := group
      simp [hnone]
    · have hskip : (group :: groups).dlookup cidr = groups.dlookup cidr := dlookup_cons_ne _ _ hcidr
      rw [hskip, if_neg hcidr]

/-- What a snapshot of some routes is: each block leads to its routes, in some order. -/
structure Indexed (snapshot : ServiceRouteSnapshot) : Prop where
  found : ∀ {cidr candidates}, snapshot.lookup cidr = some candidates →
    (∃ route ∈ snapshot.routes, route.cidr = cidr) ∧
      ∀ route, route ∈ candidates ↔ route ∈ snapshot.routes ∧ route.cidr = cidr
  not_found : ∀ {cidr}, snapshot.lookup cidr = none → ∀ route ∈ snapshot.routes, route.cidr ≠ cidr

variable (runtime : Runtime) (generation : Nat)

theorem fromRoutes_routes (routes : List ServiceRoute) :
    (fromRoutes runtime generation routes).routes = routes ∧
      (fromRoutes runtime generation routes).generation = generation := by
  refine foldlRecOn (motive := fun snapshot : ServiceRouteSnapshot => snapshot.routes = routes ∧
    snapshot.generation = generation) _ _ ⟨rfl, rfl⟩ fun snapshot h group _ => ?_
  unfold insertCandidates
  split <;> exact h

theorem lookup_fromRoutes (routes : List ServiceRoute) :
    (fromRoutes runtime generation routes).lookup cidr = if routesOf routes cidr = [] then none
      else some (runtime.sortUnstableBy candidateOrder (routesOf routes cidr)) := by
  have hperm := runtime.iterate_perm (grouped routes).entries
  have hnodup : (runtime.iterate (grouped routes).entries).NodupKeys :=
    (perm_nodupKeys hperm).mpr (grouped routes).nodupKeys
  have hlookup : (runtime.iterate (grouped routes).entries).dlookup cidr =
      (grouped routes).lookup cidr :=
    perm_dlookup cidr hnodup hperm
  rw [fromRoutes, lookup_foldl _ hnodup, hlookup, groups_grouped cidr]
  by_cases hempty : routesOf routes cidr = []
  · simp only [hempty, if_true]
    cases cidr <;> rfl
  · simp only [hempty, if_false]

theorem fromRoutes_indexed (routes : List ServiceRoute) :
    (fromRoutes runtime generation routes).Indexed := by
  have hroutes := (fromRoutes_routes runtime generation routes).1
  constructor
  · intro cidr candidates h
    rw [lookup_fromRoutes] at h
    rw [hroutes]
    split at h
    · contradiction
    next hsome =>
    cases h
    have hmem : ∀ route, route ∈ routesOf routes cidr ↔ route ∈ routes ∧ route.cidr = cidr := by
      simp [routesOf]
    obtain ⟨route, hroute⟩ := exists_mem_of_ne_nil _ hsome
    refine ⟨⟨route, (hmem route).mp hroute⟩, fun other => ?_⟩
    rw [(runtime.sort_perm _ _).mem_iff, hmem]
  · intro cidr h
    rw [lookup_fromRoutes] at h
    rw [hroutes]
    split at h
    · next hempty =>
      intro route hroute hcidr
      have hmem : route ∈ routesOf routes cidr := by simp [routesOf, hroute, hcidr]
      rw [hempty] at hmem
      simp at hmem
    · contradiction

variable {snapshot : ServiceRouteSnapshot} {candidates : List ServiceRoute}

theorem Indexed.longestMatch (h : snapshot.Indexed)
    (hlookup : snapshot.lookup cidr = some candidates) (hcontains : cidr.contains address)
    (hlongest : ∀ other routes, snapshot.lookup other = some routes → other.contains address →
      other.networkLength ≤ cidr.networkLength) : LongestMatch snapshot.routes address cidr := by
  refine ⟨(h.found hlookup).1, hcontains, ?_⟩
  intro route hroute hin
  cases hother : snapshot.lookup route.cidr with
  | none => exact absurd rfl (h.not_found hother route hroute)
  | some routes => exact hlongest route.cidr routes hother hin

variable {trie : PrefixTrie}

/-- The candidates are the routes of the longest block that contains the address. -/
theorem Indexed.candidates_some (h : snapshot.Indexed)
    (hcandidates : snapshot.candidates trie address = some candidates) :
    ∃ cidr, LongestMatch snapshot.routes address cidr ∧
      ∀ route, route ∈ candidates ↔ route ∈ snapshot.routes ∧ route.cidr = cidr := by
  cases address with
  | v4 address =>
    obtain ⟨⟨block, found⟩, hlpm, rfl⟩ := Option.map_eq_some_iff.mp hcandidates
    obtain ⟨hlookup, hcovers, hlongest⟩ := trie.found hlpm
    rw [Cidr.covers_host] at hcovers
    have hfound : snapshot.lookup (.v4 block) = some found := hlookup
    refine ⟨.v4 block, h.longestMatch hfound hcovers ?_, (h.found hfound).2⟩
    intro other routes hother hcontains
    cases other with
    | v4 other => exact hlongest other routes hother (by rwa [Cidr.covers_host])
    | v6 other => simp [IpCidr.contains] at hcontains
  | v6 address =>
    obtain ⟨⟨block, found⟩, hlpm, rfl⟩ := Option.map_eq_some_iff.mp hcandidates
    obtain ⟨hlookup, hcovers, hlongest⟩ := trie.found hlpm
    rw [Cidr.covers_host] at hcovers
    have hfound : snapshot.lookup (.v6 block) = some found := hlookup
    refine ⟨.v6 block, h.longestMatch hfound hcovers ?_, (h.found hfound).2⟩
    intro other routes hother hcontains
    cases other with
    | v4 other => simp [IpCidr.contains] at hcontains
    | v6 other => exact hlongest other routes hother (by rwa [Cidr.covers_host])

theorem Indexed.candidates_none (h : snapshot.Indexed)
    (hcandidates : snapshot.candidates trie address = none) :
    ∀ route ∈ snapshot.routes, ¬ route.cidr.contains address := by
  intro route hroute hcontains
  cases hlookup : snapshot.lookup route.cidr with
  | none => exact h.not_found hlookup route hroute rfl
  | some routes =>
    cases address with
    | v4 address =>
      have hlpm := Option.map_eq_none_iff.mp hcandidates
      cases hcidr : route.cidr with
      | v6 block => simp [hcidr, IpCidr.contains] at hcontains
      | v4 block =>
        rw [hcidr] at hlookup hcontains
        exact trie.not_found hlpm block routes hlookup (by rwa [Cidr.covers_host])
    | v6 address =>
      have hlpm := Option.map_eq_none_iff.mp hcandidates
      cases hcidr : route.cidr with
      | v4 block => simp [hcidr, IpCidr.contains] at hcontains
      | v6 block =>
        rw [hcidr] at hlookup hcontains
        exact trie.not_found hlpm block routes hlookup (by rwa [Cidr.covers_host])

end ServiceRouteSnapshot

end LowerTier.Peers
