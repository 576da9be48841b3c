import Mathlib.Algebra.Order.BigOperators.Group.Finset
import Mathlib.Data.List.AList
import Mathlib.Data.Nat.Cast.Basic

/-!
# Totals over keyed maps

A component that accounts for its entries keeps a running total beside the map.  The
lemmas say how the total of a measure changes when one key is erased, added or replaced.
-/

namespace LowerTier.ProofSupport

open List

abbrev KeyedMap (κ ν : Type) := AList fun _ : κ => ν

namespace KeyedMap

variable {κ ν : Type}

variable (f : ν → Nat) (m : KeyedMap κ ν)

def sumBy : Nat := (m.entries.map fun entry => f entry.2).sum

def size : Nat := m.entries.length

theorem size_eq_sumBy : m.size = m.sumBy fun _ => 1 := by
  simp [size, sumBy]

def retain (keep : ν → Bool) (m : KeyedMap κ ν) : KeyedMap κ ν :=
  ⟨m.entries.filter fun entry => keep entry.2, m.nodupKeys.sublist filter_sublist⟩

def retainKeys (keep : κ → Bool) (m : KeyedMap κ ν) : KeyedMap κ ν :=
  ⟨m.entries.filter fun entry => keep entry.1, m.nodupKeys.sublist filter_sublist⟩

def mapValues {μ : Type} (f : ν → μ) (m : KeyedMap κ ν) : KeyedMap κ μ :=
  ⟨m.entries.map fun entry => ⟨entry.1, f entry.2⟩, by
    rw [List.NodupKeys, keys, map_map]
    exact m.nodupKeys⟩

def setInPlace [DecidableEq κ] (k : κ) (v : ν) : KeyedMap κ ν :=
  ⟨m.entries.map fun entry => ⟨entry.1, if entry.1 = k then v else entry.2⟩, by
    rw [List.NodupKeys, keys, map_map]
    exact m.nodupKeys⟩

variable {μ : Type}

theorem sumBy_mapValues (f : ν → μ) (g : μ → Nat) (m : KeyedMap κ ν) :
    (m.mapValues f).sumBy g = m.sumBy fun v => g (f v) := by
  rw [sumBy, mapValues, map_map]
  rfl

variable [DecidableEq κ] {m : KeyedMap κ ν} {k : κ} {v : ν}

theorem lookup_mapValues (f : ν → μ) : (m.mapValues f).lookup k = (m.lookup k).map f :=
  dlookup_map₂ (f := fun _ => f) k

theorem lookup_setInPlace (other : κ) :
    (m.setInPlace k v).lookup other =
      (m.lookup other).map fun value => if other = k then v else value :=
  dlookup_map₂ (f := fun other value => if other = k then v else value) other

theorem lookup_of_lookup_retain {keep : ν → Bool} (h : (m.retain keep).lookup k = some v) :
    m.lookup k = some v :=
  AList.mem_lookup_iff.mpr (mem_of_mem_filter (AList.mem_lookup_iff.mp h))

theorem lookup_retain_of_keep {keep : ν → Bool} (h : m.lookup k = some v) (hkeep : keep v = true) :
    (m.retain keep).lookup k = some v :=
  AList.mem_lookup_iff.mpr (mem_filter.mpr ⟨AList.mem_lookup_iff.mp h, hkeep⟩)

theorem lookup_retainKeys_of_keep {keep : κ → Bool} (h : m.lookup k = some v)
    (hkeep : keep k = true) : (m.retainKeys keep).lookup k = some v :=
  AList.mem_lookup_iff.mpr (mem_filter.mpr ⟨AList.mem_lookup_iff.mp h, hkeep⟩)

theorem lookup_of_lookup_erase {key : κ} (h : (m.erase key).lookup k = some v) :
    m.lookup k = some v := by
  by_cases hkey : k = key
  · subst hkey
    simp [AList.lookup_erase] at h
  · rwa [AList.lookup_erase_ne hkey] at h

theorem lookup_insert_cases {other : κ} {found : ν} (h : (m.insert k v).lookup other = some found) :
    other = k ∧ found = v ∨ other ≠ k ∧ m.lookup other = some found := by
  by_cases hother : other = k
  · subst hother
    rw [AList.lookup_insert] at h
    exact .inl ⟨rfl, (Option.some.inj h).symm⟩
  · rw [AList.lookup_insert_ne hother] at h
    exact .inr ⟨hother, h⟩

/-- A property of all entries, after an entry that has it is added or replaced. -/
theorem forall_lookup_insert {P : κ → ν → Prop} (h : ∀ key value, m.lookup key = some value →
    P key value) (hentry : P k v) :
    ∀ key value, (m.insert k v).lookup key = some value → P key value := by
  intro key value hlookup
  rcases lookup_insert_cases hlookup with ⟨rfl, rfl⟩ | ⟨-, hold⟩
  · exact hentry
  · exact h key value hold

/-- A loop over distinct keys whose turns change the value of their own key only. -/
theorem lookup_foldl_of_own_key (turn : KeyedMap κ ν → κ → KeyedMap κ ν)
    (value : κ → Option ν → Option ν)
    (hown : ∀ m key, (turn m key).lookup key = value key (m.lookup key))
    (hother : ∀ m key other, other ≠ key → (turn m key).lookup other = m.lookup other)
    {keys : List κ} (hkeys : keys.Nodup) (m : KeyedMap κ ν) (k : κ) :
    (keys.foldl turn m).lookup k = if k ∈ keys then value k (m.lookup k) else m.lookup k := by
  induction keys generalizing m with
  | nil => rfl
  | cons key keys ih =>
    rw [nodup_cons] at hkeys
    rw [foldl_cons, ih hkeys.2]
    by_cases hkey : k = key
    · subst hkey
      rw [if_neg hkeys.1, if_pos mem_cons_self, hown]
    · rw [hother m key k hkey]
      simp only [mem_cons, hkey, false_or]

theorem lookup_foldl_erase (keys : List κ) :
    (keys.foldl (fun m key => m.erase key) m).lookup k = if k ∈ keys then none else m.lookup k := by
  induction keys generalizing m with
  | nil => rfl
  | cons key keys ih =>
    rw [foldl_cons, ih]
    by_cases hkey : k = key
    · subst hkey
      rw [AList.lookup_erase, ite_self, if_pos mem_cons_self]
    · rw [AList.lookup_erase_ne hkey]
      simp only [mem_cons, hkey, false_or]

theorem entries_perm_erase (h : m.lookup k = some v) :
    m.entries.Perm (⟨k, v⟩ :: (m.erase k).entries) := by
  have hmem : k ∈ m.entries.keys := AList.lookup_isSome.mp (by rw [h]; rfl)
  obtain ⟨found, front, back, hfront, hentries, herase⟩ := exists_of_kerase hmem
  have hfound : v = found := by
    have hlookup : m.entries.dlookup k = some v := h
    rw [hentries, dlookup_append, dlookup_eq_none.mpr hfront] at hlookup
    simpa using hlookup.symm
  have hrest : (m.erase k).entries = front ++ back := herase
  rw [hrest, hentries, hfound]
  exact perm_middle

theorem sumBy_erase (h : m.lookup k = some v) :
    sumBy f (m.erase k) + f v = sumBy f m := by
  have hsum : sumBy f m = f v + sumBy f (m.erase k) :=
    ((entries_perm_erase h).map fun entry : (_ : κ) × ν => f entry.2).sum_eq
  omega

theorem sumBy_erase_of_none (h : m.lookup k = none) :
    sumBy f (m.erase k) = sumBy f m := by
  have hsame : (m.erase k).entries = m.entries := kerase_of_notMem_keys (AList.lookup_eq_none.mp h)
  rw [sumBy, sumBy, hsame]

theorem sumBy_insert (m : KeyedMap κ ν) (k : κ) (v : ν) :
    sumBy f (m.insert k v) = f v + sumBy f (m.erase k) := rfl

theorem sumBy_erase_add {d : ν} (hzero : f d = 0) (m : KeyedMap κ ν) (k : κ) :
    sumBy f (m.erase k) + f ((m.lookup k).getD d) = sumBy f m := by
  cases hlookup : m.lookup k with
  | none => rw [Option.getD_none, hzero, sumBy_erase_of_none f hlookup, Nat.add_zero]
  | some old => rw [Option.getD_some, sumBy_erase f hlookup]

/-- Two maps that differ at one key, where a value that is not there counts nothing. -/
theorem sumBy_add_of_others {m' : KeyedMap κ ν} {d : ν} (hzero : f d = 0)
    (h : ∀ other ≠ k, m'.lookup other = m.lookup other) :
    sumBy f m' + f ((m.lookup k).getD d) = sumBy f m + f ((m'.lookup k).getD d) := by
  have hrest : (m'.erase k).entries.Perm (m.erase k).entries := by
    refine lookup_ext (m'.erase k).nodupKeys (m.erase k).nodupKeys fun other v => ?_
    change v ∈ (m'.erase k).lookup other ↔ v ∈ (m.erase k).lookup other
    by_cases hsame : other = k
    · rw [hsame, AList.lookup_erase, AList.lookup_erase]
    · rw [AList.lookup_erase_ne hsame, AList.lookup_erase_ne hsame, h other hsame]
  have hsum : sumBy f (m'.erase k) = sumBy f (m.erase k) := (hrest.map _).sum_eq
  have hbefore := sumBy_erase_add f hzero m k
  have hafter := sumBy_erase_add f hzero m' k
  omega

theorem le_sumBy (h : m.lookup k = some v) : f v ≤ sumBy f m :=
  sumBy_erase f h ▸ Nat.le_add_left _ _

variable {f : ν → Nat}

theorem sumBy_eq_zero (h : ∀ k v, m.lookup k = some v → f v = 0) : sumBy f m = 0 := by
  refine sum_eq_zero fun n hn => ?_
  obtain ⟨entry, hentry, rfl⟩ := mem_map.mp hn
  exact h entry.1 entry.2 (AList.mem_lookup_iff.mpr hentry)

theorem size_erase (h : m.lookup k = some v) : size (m.erase k) + 1 = size m := by
  simpa [size_eq_sumBy] using sumBy_erase (fun _ => 1) h

theorem size_insert_of_none (h : m.lookup k = none) : size (m.insert k v) = size m + 1 := by
  rw [size_eq_sumBy, size_eq_sumBy, sumBy_insert, sumBy_erase_of_none _ h, Nat.add_comm]

theorem size_insert_of_some {old : ν} (h : m.lookup k = some old) :
    size (m.insert k v) = size m := by
  rw [← size_erase h, size_eq_sumBy, size_eq_sumBy, sumBy_insert, Nat.add_comm]

theorem size_insert_le {limit : Nat} (h : size m ≤ limit)
    (hroom : (m.lookup k).isSome ∨ size m < limit) : size (m.insert k v) ≤ limit := by
  cases hlookup : m.lookup k with
  | none =>
    rw [size_insert_of_none hlookup]
    exact hroom.resolve_left (hlookup ▸ nofun)
  | some old => rwa [size_insert_of_some hlookup]

theorem sumBy_eq_sum : m.sumBy f = ∑ k ∈ m.keys.toFinset, (m.lookup k).elim 0 f := by
  rw [sum_toFinset _ m.keys_nodup, sumBy]
  congr 1
  rw [AList.keys, keys, map_map]
  refine map_congr_left fun entry hentry => ?_
  have hlookup : m.lookup entry.1 = some entry.2 := AList.mem_lookup_iff.mpr hentry
  rw [Function.comp_apply, hlookup, Option.elim_some]

/-- A map whose entries that count are found, at least as large, in another. -/
theorem sumBy_le_sumBy {g : μ → Nat} {m' : KeyedMap κ μ} (h : ∀ k v, m.lookup k = some v → f v ≠ 0 →
      ∃ w, m'.lookup k = some w ∧ f v ≤ g w) : m.sumBy f ≤ m'.sumBy g := by
  rw [sumBy_eq_sum, sumBy_eq_sum]
  have hpoint : ∀ k, (m.lookup k).elim 0 f ≤ (m'.lookup k).elim 0 g := by
    intro k
    cases hlookup : m.lookup k with
    | none => exact Nat.zero_le _
    | some v =>
      by_cases hzero : f v = 0
      · rw [Option.elim_some, hzero]
        exact Nat.zero_le _
      · obtain ⟨w, hw, hle⟩ := h k v hlookup hzero
        rwa [hw]
  calc ∑ k ∈ m.keys.toFinset, (m.lookup k).elim 0 f
      ≤ ∑ k ∈ m.keys.toFinset, (m'.lookup k).elim 0 g := Finset.sum_le_sum fun k _ => hpoint k
    _ ≤ ∑ k ∈ m'.keys.toFinset, (m'.lookup k).elim 0 g := by
        apply Finset.sum_le_sum_of_ne_zero
        intro k _ hne
        rw [mem_toFinset]
        by_contra hkey
        rw [AList.lookup_eq_none.mpr hkey] at hne
        exact hne rfl

end KeyedMap

/-- No two keys have values that agree in `f`. -/
def DistinctBy {κ ν α : Type} (f : ν → α) (table : κ → Option ν) : Prop :=
  ∀ k k' v v', table k = some v → table k' = some v' → f v = f v' → k = k'

namespace DistinctBy

variable {κ ν α : Type} {f : ν → α} {table table' : κ → Option ν}

theorem of_none (h : ∀ k, table k = none) : DistinctBy f table := by
  intro k k' v v' hk
  rw [h k] at hk
  cases hk

theorem of_sub (h : DistinctBy f table) (hsub : ∀ k v, table' k = some v → table k = some v) :
    DistinctBy f table' :=
  fun k k' v v' hk hk' => h k k' v v' (hsub k v hk) (hsub k' v' hk')

theorem update (h : DistinctBy f table) {k : κ} {v : ν} (hself : table' k = some v)
    (hothers : ∀ other ≠ k, table' other = table other)
    (hfresh : ∀ other ≠ k, ∀ value, table other = some value → f value ≠ f v) :
    DistinctBy f table' := by
  have hnew : ∀ other value, table' other = some value → f value = f v → other = k := by
    intro other value hvalue hsame
    by_contra hne
    rw [hothers other hne] at hvalue
    exact hfresh other hne value hvalue hsame
  intro left right leftValue rightValue hleft hright hsame
  by_cases hk : left = k
  · subst hk
    obtain rfl : v = leftValue := Option.some.inj (hself.symm.trans hleft)
    exact (hnew right rightValue hright hsame.symm).symm
  by_cases hk' : right = k
  · subst hk'
    obtain rfl : v = rightValue := Option.some.inj (hself.symm.trans hright)
    exact hnew left leftValue hleft hsame
  · rw [hothers left hk] at hleft
    rw [hothers right hk'] at hright
    exact h left right leftValue rightValue hleft hright hsame

end DistinctBy

end LowerTier.ProofSupport
