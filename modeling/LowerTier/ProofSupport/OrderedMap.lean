import Mathlib.Algebra.GroupWithZero.Nat
import Mathlib.Data.Finset.Card
import Mathlib.Data.List.Pairwise
import Mathlib.Data.List.Sort

/-!
# Ordered sets

A `BTreeSet`: a strictly increasing list, so that sets with the same members are equal and
iteration has one order.
-/

namespace LowerTier.ProofSupport

open List

/-- The linear order of a machine integer. -/
abbrev linearOrderOfLE {α : Type} [LE α] [LT α] [DecidableLE α] (refl : ∀ a : α, a ≤ a)
    (trans : ∀ {a b c : α}, a ≤ b → b ≤ c → a ≤ c) (antisymm : ∀ {a b : α}, a ≤ b → b ≤ a → a = b)
    (total : ∀ a b : α, a ≤ b ∨ b ≤ a) (not_le : ∀ {a b : α}, ¬a ≤ b ↔ b < a) : LinearOrder α where
  le_refl := refl
  le_trans _ _ _ := trans
  le_antisymm _ _ := antisymm
  le_total := total
  lt_iff_le_not_ge a b := by
    rw [← not_le]
    exact ⟨fun h => ⟨(total a b).resolve_right h, h⟩, fun h => h.2⟩
  toDecidableLE := inferInstance

instance linearOrderUInt32 : LinearOrder UInt32 :=
  linearOrderOfLE UInt32.le_refl UInt32.le_trans UInt32.le_antisymm UInt32.le_total UInt32.not_le

structure OrderedSet (α : Type) [LinearOrder α] where
  toList : List α
  sorted : toList.Pairwise (· < ·)
deriving DecidableEq

namespace OrderedSet

variable {α : Type} [LinearOrder α]

instance : Membership α (OrderedSet α) := ⟨fun s x => x ∈ s.toList⟩

instance (s : OrderedSet α) (x : α) : Decidable (x ∈ s) :=
  inferInstanceAs (Decidable (x ∈ s.toList))

variable {s : OrderedSet α} {x : α}

theorem mem_toList : x ∈ s.toList ↔ x ∈ s := Iff.rfl

def empty : OrderedSet α := ⟨[], .nil⟩

@[simp] theorem not_mem_empty : x ∉ (empty : OrderedSet α) := not_mem_nil

def size (s : OrderedSet α) : Nat := s.toList.length

theorem ext {s t : OrderedSet α} (h : ∀ x, x ∈ s ↔ x ∈ t) : s = t := by
  obtain ⟨xs, hxs⟩ := s
  obtain ⟨ys, hys⟩ := t
  obtain rfl : xs = ys := List.Pairwise.eq_of_mem_iff hxs hys h
  rfl

def insertList (x : α) : List α → List α
  | [] => [x]
  | y :: ys => if x < y then x :: y :: ys else if x = y then y :: ys else y :: insertList x ys

theorem mem_insertList {x y : α} {ys : List α} : y ∈ insertList x ys ↔ y = x ∨ y ∈ ys := by
  induction ys with
  | nil => simp [insertList]
  | cons z zs ih =>
    rw [insertList]
    split_ifs with hlt heq
    · simp
    · subst heq
      simp
    · rw [mem_cons, ih, mem_cons, or_left_comm]

theorem sorted_insertList {ys : List α} (h : ys.Pairwise (· < ·)) :
    (insertList x ys).Pairwise (· < ·) := by
  induction ys with
  | nil => simp [insertList]
  | cons y ys ih =>
    obtain ⟨hhead, htail⟩ := pairwise_cons.mp h
    rw [insertList]
    split_ifs with hlt heq
    · refine pairwise_cons.mpr ⟨fun z hz => ?_, h⟩
      rcases mem_cons.mp hz with rfl | hz
      · exact hlt
      · exact hlt.trans (hhead z hz)
    · exact h
    · refine pairwise_cons.mpr ⟨fun z hz => ?_, ih htail⟩
      rcases mem_insertList.mp hz with rfl | hz
      · exact lt_of_le_of_ne (not_lt.mp hlt) (Ne.symm heq)
      · exact hhead z hz

def insert (x : α) (s : OrderedSet α) : OrderedSet α :=
  ⟨insertList x s.toList, sorted_insertList s.sorted⟩

@[simp] theorem mem_insert {x y : α} : y ∈ s.insert x ↔ y = x ∨ y ∈ s := mem_insertList

def extend (s : OrderedSet α) (xs : List α) : OrderedSet α := xs.foldl (fun s x => s.insert x) s

@[simp] theorem mem_extend {xs : List α} : x ∈ s.extend xs ↔ x ∈ s ∨ x ∈ xs := by
  induction xs generalizing s with
  | nil => simp [extend]
  | cons y ys ih =>
    change x ∈ (s.insert y).extend ys ↔ _
    rw [ih, mem_insert, mem_cons, or_comm (a := x = y), or_assoc]

def erase (x : α) (s : OrderedSet α) : OrderedSet α :=
  ⟨s.toList.filter (· ≠ x), s.sorted.filter _⟩

@[simp] theorem mem_erase {x y : α} : y ∈ s.erase x ↔ y ∈ s ∧ y ≠ x := by
  rw [← mem_toList, erase, mem_filter, mem_toList, decide_eq_true_iff]

theorem erase_insert (hnew : x ∉ s) : (s.insert x).erase x = s := by
  apply ext
  intro y
  rw [mem_erase, mem_insert]
  constructor
  · rintro ⟨rfl | hold, hne⟩
    · exact absurd rfl hne
    · exact hold
  · exact fun hold => ⟨.inr hold, fun heq => hnew (heq ▸ hold)⟩

def ofList (xs : List α) : OrderedSet α := xs.foldr insert empty

@[simp] theorem mem_ofList {xs : List α} : x ∈ ofList xs ↔ x ∈ xs := by
  induction xs with
  | nil => simp [ofList]
  | cons y ys ih => rw [ofList, foldr_cons, mem_insert, mem_cons, ← ih, ofList]

theorem size_ofList {xs : List α} (h : xs.Nodup) : (ofList xs).size = xs.length := by
  have hnodup : (ofList xs).toList.Nodup := (ofList xs).sorted.imp ne_of_lt
  exact ((perm_ext_iff_of_nodup hnodup h).mpr fun x => mem_ofList).length_eq

end OrderedSet

/-!
## Ordered maps

A `BTreeMap`: a list of entries with strictly increasing keys, so that iteration and the first
entry follow the order of the keys.
-/

structure OrderedMap (κ ν : Type) [LinearOrder κ] where
  entries : List (κ × ν)
  sorted : entries.Pairwise fun a b => a.1 < b.1
deriving DecidableEq

namespace OrderedMap

variable {κ ν : Type} [LinearOrder κ] {m : OrderedMap κ ν} {k : κ} {v : ν}

def empty : OrderedMap κ ν := ⟨[], .nil⟩

def lookup (m : OrderedMap κ ν) (k : κ) : Option ν :=
  (m.entries.find? fun entry => entry.1 = k).map Prod.snd

def insertEntry (k : κ) (v : ν) : List (κ × ν) → List (κ × ν)
  | [] => [(k, v)]
  | entry :: rest =>
    if k < entry.1 then (k, v) :: entry :: rest
    else if k = entry.1 then (k, v) :: rest
    else entry :: insertEntry k v rest

variable {entry : κ × ν} {entries : List (κ × ν)}

theorem mem_insertEntry
    (h : entry ∈ insertEntry k v entries) : entry = (k, v) ∨ entry ∈ entries := by
  induction entries with
  | nil => exact .inl (mem_singleton.mp h)
  | cons first rest ih =>
    unfold insertEntry at h
    split_ifs at h
    · exact mem_cons.mp h
    · rcases mem_cons.mp h with h | h
      · exact .inl h
      · exact .inr (mem_cons_of_mem _ h)
    · rcases mem_cons.mp h with rfl | h
      · exact .inr mem_cons_self
      · exact (ih h).imp_right (mem_cons_of_mem _)

theorem sorted_insertEntry (h : entries.Pairwise fun a b => a.1 < b.1) :
    (insertEntry k v entries).Pairwise fun a b => a.1 < b.1 := by
  induction entries with
  | nil => exact pairwise_singleton _ _
  | cons first rest ih =>
    obtain ⟨hfirst, hrest⟩ := pairwise_cons.mp h
    unfold insertEntry
    split_ifs with hlt heq
    · refine pairwise_cons.mpr ⟨fun other hother => ?_, h⟩
      rcases mem_cons.mp hother with rfl | hother
      · exact hlt
      · exact hlt.trans (hfirst other hother)
    · refine pairwise_cons.mpr ⟨fun other hother => ?_, hrest⟩
      rw [heq]
      exact hfirst other hother
    · refine pairwise_cons.mpr ⟨fun other hother => ?_, ih hrest⟩
      rcases mem_insertEntry hother with rfl | hother
      · exact lt_of_le_of_ne (not_lt.mp hlt) (Ne.symm heq)
      · exact hfirst other hother

def insert (m : OrderedMap κ ν) (k : κ) (v : ν) : OrderedMap κ ν :=
  ⟨insertEntry k v m.entries, sorted_insertEntry m.sorted⟩

def erase (m : OrderedMap κ ν) (k : κ) : OrderedMap κ ν :=
  ⟨m.entries.filter fun entry => entry.1 ≠ k, m.sorted.filter _⟩

def first (m : OrderedMap κ ν) : Option (κ × ν) := m.entries.head?

def sumBy (f : ν → Nat) (m : OrderedMap κ ν) : Nat := (m.entries.map fun entry => f entry.2).sum

theorem mem_of_lookup (h : m.lookup k = some v) : (k, v) ∈ m.entries := by
  obtain ⟨⟨key, value⟩, hfind, rfl⟩ := Option.map_eq_some_iff.mp h
  have hkey : key = k := by simpa using find?_some hfind
  subst hkey
  exact mem_of_find?_eq_some hfind

theorem lookup_eq_none : m.lookup k = none ↔ ∀ entry ∈ m.entries, entry.1 ≠ k := by
  unfold lookup
  simp

theorem eq_of_mem_entries {a b : κ × ν} (ha : a ∈ m.entries) (hb : b ∈ m.entries)
    (hkey : a.1 = b.1) : a = b := by
  by_contra hne
  have hlt : a.1 < b.1 ∨ b.1 < a.1 := by
    have hboth : m.entries.Pairwise fun a b => a.1 < b.1 ∨ b.1 < a.1 := m.sorted.imp .inl
    have : Std.Symm fun a b : κ × ν => a.1 < b.1 ∨ b.1 < a.1 := ⟨fun _ _ h => h.symm⟩
    exact hboth.forall ha hb hne
  rcases hlt with hlt | hlt <;> exact absurd hlt (by rw [hkey]; exact lt_irrefl _)

theorem lookup_of_mem (h : (k, v) ∈ m.entries) : m.lookup k = some v := by
  cases hlookup : m.lookup k with
  | none => exact absurd rfl (lookup_eq_none.mp hlookup _ h)
  | some found =>
    have hsame := eq_of_mem_entries (mem_of_lookup hlookup) h rfl
    rw [(Prod.mk.inj hsame).2]

theorem mem_entries_insert (h : entry ∈ (m.insert k v).entries) :
    entry = (k, v) ∨ entry ∈ m.entries := mem_insertEntry h

theorem mem_entries_erase : entry ∈ (m.erase k).entries ↔ entry ∈ m.entries ∧ entry.1 ≠ k := by
  unfold erase
  simp

theorem entries_insert_of_gt (h : ∀ entry ∈ m.entries, entry.1 < k) :
    (m.insert k v).entries = m.entries ++ [(k, v)] := by
  have hlist : ∀ entries : List (κ × ν), (∀ entry ∈ entries, entry.1 < k) →
      insertEntry k v entries = entries ++ [(k, v)] := by
    intro entries
    induction entries with
    | nil => exact fun _ => rfl
    | cons first rest ih =>
      intro hlt
      have hfirst := hlt first mem_cons_self
      rw [insertEntry, if_neg hfirst.not_gt, if_neg hfirst.ne', ih, cons_append]
      exact fun entry hentry => hlt entry (mem_cons_of_mem _ hentry)
  exact hlist m.entries h

theorem entries_erase_head {rest : List (κ × ν)} (h : m.entries = (k, v) :: rest) :
    (m.erase k).entries = rest := by
  have hsorted := m.sorted
  rw [h, pairwise_cons] at hsorted
  unfold erase
  dsimp only
  rw [h, filter_cons_of_neg (by simp), filter_eq_self]
  exact fun entry hentry => by simpa using (hsorted.1 entry hentry).ne'

theorem sumBy_insert (f : ν → Nat) (h : m.lookup k = none) :
    (m.insert k v).sumBy f = m.sumBy f + f v := by
  have hlist : ∀ entries : List (κ × ν), (∀ entry ∈ entries, entry.1 ≠ k) →
      ((insertEntry k v entries).map fun entry => f entry.2).sum =
        (entries.map fun entry => f entry.2).sum + f v := by
    intro entries
    induction entries with
    | nil => simp [insertEntry]
    | cons first rest ih =>
      intro hne
      have hrest := ih fun entry hentry => hne entry (mem_cons_of_mem _ hentry)
      unfold insertEntry
      split_ifs with hlt heq
      · exact (sum_cons).trans (Nat.add_comm _ _)
      · exact absurd heq.symm (hne first mem_cons_self)
      · rw [map_cons, sum_cons, map_cons, sum_cons]
        omega
  exact hlist m.entries (lookup_eq_none.mp h)

theorem sumBy_erase (f : ν → Nat) (h : m.lookup k = some v) :
    (m.erase k).sumBy f + f v = m.sumBy f := by
  have hlist : ∀ entries : List (κ × ν), (entries.Pairwise fun a b => a.1 < b.1) →
      (k, v) ∈ entries →
        ((entries.filter fun entry => entry.1 ≠ k).map fun entry => f entry.2).sum + f v =
          (entries.map fun entry => f entry.2).sum := by
    intro entries
    induction entries with
    | nil => exact fun _ hmem => absurd hmem not_mem_nil
    | cons first rest ih =>
      intro hsorted hmem
      obtain ⟨hfirst, hrest⟩ := pairwise_cons.mp hsorted
      rcases mem_cons.mp hmem with rfl | hmem
      · have hkeep : rest.filter (fun entry => entry.1 ≠ k) = rest := by
          rw [filter_eq_self]
          exact fun entry hentry => by simpa using (hfirst entry hentry).ne'
        rw [filter_cons_of_neg (by simp), hkeep, map_cons, sum_cons, Nat.add_comm]
      · have hne : first.1 ≠ k := (hfirst _ hmem).ne
        have hsum := ih hrest hmem
        rw [filter_cons_of_pos (by simpa using hne), map_cons, sum_cons, map_cons, sum_cons]
        omega
  exact hlist m.entries m.sorted (mem_of_lookup h)

end OrderedMap

end LowerTier.ProofSupport
