import Mathlib

/-!
# Insertion-Ordered Dictionaries

A finite map that remembers the order in which its keys first appeared. Storing
under a key that is already there changes the value and keeps the position;
storing under a new key appends. Popping the newest entry therefore undoes the
last store of a new key, which is what a rollback by `popitem` relies on.

`AList` is not this map: its `insert` moves the key to the front.

The entries carry the proof that no key occurs twice, so a lookup never has to
choose between two values and the size is the number of keys.

## Main definitions

* `Dict`: Association lists in insertion order without repeated keys.
* `Dict.get?`, `Dict.set`, `Dict.erase`: Lookup, store and removal.
* `Dict.eraseWhere`: Removal of every entry satisfying a test.
* `Dict.mapVals`: Updating every value in place.

## Theorems

* `get?_set_self`, `get?_set_ne`: What a store changes and what it leaves.
* `get?_erase_self`, `get?_erase_ne`: The same for a removal.
* `mem_keys_iff`: A key is present exactly when its lookup answers.
* `size_set_of_none`: Storing under a new key adds one entry.
* `erase_set_of_none`, `set_of_get?`, `set_set`: Stores that are undone, are not
  needed, or are overwritten.
-/

namespace STS2RL

/-- Association lists in insertion order without repeated keys. -/
structure Dict (κ ν : Type) where
  entries : List (κ × ν)
  nodup : (entries.map Prod.fst).Nodup

namespace Dict

variable {κ ν : Type} [DecidableEq κ]

/-- The value stored first under `k` in a raw association list. -/
def lookupL (k : κ) : List (κ × ν) → Option ν
  | [] => none
  | (k', v) :: rest => if k' = k then some v else lookupL k rest

/-- Store in a raw association list: in place, or at the end. -/
def setL (k : κ) (v : ν) : List (κ × ν) → List (κ × ν)
  | [] => [(k, v)]
  | (k', v') :: rest => if k' = k then (k, v) :: rest else (k', v') :: setL k v rest

@[simp]
theorem lookupL_cons_self (k : κ) (v : ν) (rest : List (κ × ν)) :
    lookupL k ((k, v) :: rest) = some v := if_pos rfl

theorem lookupL_cons_ne {k k' : κ} (h : k' ≠ k) (v : ν) (rest : List (κ × ν)) :
    lookupL k ((k', v) :: rest) = lookupL k rest := if_neg h

@[simp]
theorem setL_cons_self (k : κ) (v w : ν) (rest : List (κ × ν)) :
    setL k v ((k, w) :: rest) = (k, v) :: rest := if_pos rfl

theorem setL_cons_ne {k k' : κ} (h : k' ≠ k) (v w : ν) (rest : List (κ × ν)) :
    setL k v ((k', w) :: rest) = (k', w) :: setL k v rest := if_neg h

theorem map_fst_setL (k : κ) (v : ν) (l : List (κ × ν)) :
    (setL k v l).map Prod.fst =
      if k ∈ l.map Prod.fst then l.map Prod.fst else l.map Prod.fst ++ [k] := by
  induction l with
  | nil => simp [setL]
  | cons e rest ih =>
      rcases e with ⟨k', v'⟩
      by_cases hk : k' = k
      · simp [setL, hk]
      · have hk' : ¬ k = k' := fun hc => hk hc.symm
        simp only [setL, if_neg hk, List.map_cons, ih, List.mem_cons, hk', false_or]
        split <;> simp

theorem nodup_setL (k : κ) (v : ν) (l : List (κ × ν)) (h : (l.map Prod.fst).Nodup) :
    ((setL k v l).map Prod.fst).Nodup := by
  rw [map_fst_setL]
  by_cases hk : k ∈ l.map Prod.fst
  · rwa [if_pos hk]
  · rw [if_neg hk]
    exact List.Nodup.append h (List.nodup_singleton k)
      (List.disjoint_singleton.mpr hk)

/-- The dictionary without entries. -/
def empty : Dict κ ν := ⟨[], List.nodup_nil⟩

instance : Inhabited (Dict κ ν) := ⟨empty⟩

/-- The value stored under a key. -/
def get? (d : Dict κ ν) (k : κ) : Option ν := lookupL k d.entries

/-- Store under a key, keeping the position of a key already present. -/
def set (d : Dict κ ν) (k : κ) (v : ν) : Dict κ ν :=
  ⟨setL k v d.entries, nodup_setL k v d.entries d.nodup⟩

/-- Remove every entry whose key or value passes the test. -/
def eraseWhere (d : Dict κ ν) (p : κ → ν → Bool) : Dict κ ν :=
  ⟨d.entries.filter (fun e => !p e.1 e.2),
    (List.filter_sublist.map Prod.fst).nodup d.nodup⟩

/-- Remove a key. -/
def erase (d : Dict κ ν) (k : κ) : Dict κ ν := d.eraseWhere (fun k' _ => k' = k)

/-- Apply a function to every value, in place. -/
def mapVals {μ : Type} (d : Dict κ ν) (f : κ → ν → μ) : Dict κ μ :=
  ⟨d.entries.map (fun e => (e.1, f e.1 e.2)), by
    simpa only [List.map_map, Function.comp_def] using d.nodup⟩

/-- The keys, oldest first. -/
def keys (d : Dict κ ν) : List κ := d.entries.map Prod.fst

/-- The number of entries. -/
def size (d : Dict κ ν) : Nat := d.entries.length

@[simp]
theorem get?_empty (k : κ) : (empty : Dict κ ν).get? k = none := rfl

omit [DecidableEq κ] in
@[simp]
theorem size_empty : (empty : Dict κ ν).size = 0 := rfl

theorem lookupL_setL_self (k : κ) (v : ν) (l : List (κ × ν)) :
    lookupL k (setL k v l) = some v := by
  induction l with
  | nil => simp [setL]
  | cons e rest ih =>
      rcases e with ⟨k', v'⟩
      by_cases hk : k' = k
      · simp [setL, hk]
      · simpa [setL, lookupL, hk] using ih

theorem setL_setL_self (k : κ) (v w : ν) (l : List (κ × ν)) :
    setL k w (setL k v l) = setL k w l := by
  induction l with
  | nil => exact setL_cons_self k w v []
  | cons m rest ih =>
      rcases m with ⟨k', v'⟩
      by_cases hk : k' = k
      · subst hk
        simp
      · simp [setL_cons_ne hk, ih]

/-- Setting what a key has already changes nothing. -/
theorem setL_of_lookupL {k : κ} {v : ν} {l : List (κ × ν)} (h : lookupL k l = some v) :
    setL k v l = l := by
  induction l with
  | nil => cases h
  | cons m rest ih =>
      rcases m with ⟨k', v'⟩
      by_cases hk : k' = k
      · subst hk
        rw [lookupL_cons_self, Option.some.injEq] at h
        rw [setL_cons_self, h]
      · rw [lookupL_cons_ne hk] at h
        rw [setL_cons_ne hk, ih h]

/-- A store changes a count by the two values of its key. -/
theorem countP_setL {k : κ} {v w : ν} {l : List (κ × ν)} (p : κ × ν → Bool)
    (h : lookupL k l = some w) :
    (setL k v l).countP p + (if p (k, w) then 1 else 0) =
      l.countP p + if p (k, v) then 1 else 0 := by
  induction l with
  | nil => cases h
  | cons m rest ih =>
      rcases m with ⟨k', v'⟩
      by_cases hk : k' = k
      · subst hk
        rw [lookupL_cons_self, Option.some.injEq] at h
        rw [setL_cons_self, h, List.countP_cons, List.countP_cons]
        omega
      · rw [lookupL_cons_ne hk] at h
        have hrest := ih h
        rw [setL_cons_ne hk, List.countP_cons, List.countP_cons]
        omega

theorem lookupL_setL_ne (k k' : κ) (v : ν) (l : List (κ × ν)) (hne : k' ≠ k) :
    lookupL k' (setL k v l) = lookupL k' l := by
  induction l with
  | nil => simp [setL, lookupL, hne.symm]
  | cons e rest ih =>
      rcases e with ⟨k₀, v₀⟩
      by_cases hk : k₀ = k
      · simp [setL, lookupL, hk, hne.symm]
      · simp only [setL, if_neg hk, lookupL, ih]

@[simp]
theorem get?_set_self (d : Dict κ ν) (k : κ) (v : ν) : (d.set k v).get? k = some v :=
  lookupL_setL_self k v d.entries

theorem get?_set_ne (d : Dict κ ν) {k k' : κ} (v : ν) (hne : k' ≠ k) :
    (d.set k v).get? k' = d.get? k' :=
  lookupL_setL_ne k k' v d.entries hne

theorem get?_set (d : Dict κ ν) (k k' : κ) (v : ν) :
    (d.set k v).get? k' = if k' = k then some v else d.get? k' := by
  by_cases hk : k' = k
  · rw [if_pos hk, hk, get?_set_self]
  · rw [if_neg hk, get?_set_ne d v hk]

theorem lookupL_eq_none {k : κ} {l : List (κ × ν)} :
    lookupL k l = none ↔ k ∉ l.map Prod.fst := by
  induction l with
  | nil => simp [lookupL]
  | cons e rest ih =>
      rcases e with ⟨k', v'⟩
      by_cases hk : k' = k
      · simp [lookupL, hk]
      · have hk' : ¬ k = k' := fun hc => hk hc.symm
        simp [lookupL, hk, hk', ih]

theorem lookupL_mem {k : κ} {v : ν} {l : List (κ × ν)} (h : lookupL k l = some v) :
    (k, v) ∈ l := by
  induction l with
  | nil => simp [lookupL] at h
  | cons e rest ih =>
      rcases e with ⟨k', v'⟩
      by_cases hk : k' = k
      · simp only [lookupL, if_pos hk, Option.some.injEq] at h
        simp [hk, h]
      · simp only [lookupL, if_neg hk] at h
        exact List.mem_cons_of_mem _ (ih h)

/-- An entry of a list without repetitions is what is looked up. -/
theorem lookupL_of_mem {k : κ} {v : ν} {l : List (κ × ν)} (hd : (l.map Prod.fst).Nodup)
    (h : (k, v) ∈ l) : lookupL k l = some v := by
  induction l with
  | nil => simp at h
  | cons e rest ih =>
      rcases e with ⟨k', v'⟩
      simp only [List.map_cons, List.nodup_cons] at hd
      rcases List.mem_cons.mp h with heq | hmem
      · simp only [Prod.mk.injEq] at heq
        simp [lookupL, heq.1, heq.2]
      · have hk : k' ≠ k := by
          rintro rfl
          exact hd.1 (List.mem_map_of_mem hmem)
        simpa [lookupL, hk] using ih hd.2 hmem

theorem mem_entries_iff (d : Dict κ ν) (k : κ) (v : ν) :
    (k, v) ∈ d.entries ↔ d.get? k = some v :=
  ⟨lookupL_of_mem d.nodup, lookupL_mem⟩

/-- A key is present exactly when its lookup answers. -/
theorem mem_keys_iff (d : Dict κ ν) (k : κ) : k ∈ d.keys ↔ ∃ v, d.get? k = some v := by
  rw [keys, List.mem_map]
  constructor
  · rintro ⟨⟨k', v⟩, hmem, rfl⟩
    exact ⟨v, lookupL_of_mem d.nodup hmem⟩
  · rintro ⟨v, hv⟩
    exact ⟨(k, v), lookupL_mem hv, rfl⟩

/-- Removing by a condition removes what is looked up, if it meets it. -/
theorem get?_eraseWhere (d : Dict κ ν) (p : κ → ν → Bool) (k : κ) :
    (d.eraseWhere p).get? k = (d.get? k).filter (fun v => !p k v) := by
  cases hget : d.get? k with
  | none =>
      rw [Option.filter_none, get?, lookupL_eq_none]
      rw [get?, lookupL_eq_none] at hget
      exact fun hmem => hget ((List.filter_sublist.map Prod.fst).subset hmem)
  | some v =>
      have hmem : (k, v) ∈ d.entries := (mem_entries_iff d k v).mpr hget
      by_cases hp : p k v = true
      · have hnone : ¬ ∃ w, (d.eraseWhere p).get? k = some w := by
          rintro ⟨w, hw⟩
          have hmem' := (mem_entries_iff (d.eraseWhere p) k w).mpr hw
          simp only [eraseWhere, List.mem_filter, Bool.not_eq_true'] at hmem'
          have hw' := (mem_entries_iff d k w).mp hmem'.1
          rw [hget, Option.some.injEq] at hw'
          rw [← hw'] at hmem'
          exact absurd hp (by simp [hmem'.2])
        have hnone' : (d.eraseWhere p).get? k = none := by
          cases hc : (d.eraseWhere p).get? k with
          | none => rfl
          | some w => exact absurd ⟨w, hc⟩ hnone
        rw [hnone']
        simp [Option.filter, hp]
      · have hin : (k, v) ∈ (d.eraseWhere p).entries := by
          simp only [eraseWhere, List.mem_filter, Bool.not_eq_true']
          exact ⟨hmem, by simpa using hp⟩
        rw [(mem_entries_iff (d.eraseWhere p) k v).mp hin]
        simp [Option.filter, hp]

@[simp]
theorem get?_erase_self (d : Dict κ ν) (k : κ) : (d.erase k).get? k = none := by
  rw [erase, get?_eraseWhere]
  cases d.get? k <;> simp [Option.filter]

theorem get?_erase_ne (d : Dict κ ν) {k k' : κ} (hne : k' ≠ k) :
    (d.erase k).get? k' = d.get? k' := by
  rw [erase, get?_eraseWhere]
  cases d.get? k' <;> simp [Option.filter, hne]

theorem lookupL_map (k : κ) {μ : Type} (f : κ → ν → μ) (l : List (κ × ν)) :
    lookupL k (l.map (fun e => (e.1, f e.1 e.2))) = (lookupL k l).map (f k) := by
  induction l with
  | nil => rfl
  | cons e rest ih =>
      rcases e with ⟨k', v'⟩
      by_cases hk : k' = k
      · simp [lookupL, hk]
      · simpa [lookupL, hk] using ih

theorem get?_mapVals {μ : Type} (d : Dict κ ν) (f : κ → ν → μ) (k : κ) :
    (d.mapVals f).get? k = (d.get? k).map (f k) :=
  lookupL_map k f d.entries

/-- Storing under a new key adds one entry. -/
theorem size_set_of_none (d : Dict κ ν) (k : κ) (v : ν) (h : d.get? k = none) :
    (d.set k v).size = d.size + 1 := by
  have hk : k ∉ d.entries.map Prod.fst := lookupL_eq_none.mp h
  have hlen := congrArg List.length (map_fst_setL k v d.entries)
  rw [if_neg hk] at hlen
  simpa [set, size] using hlen

omit [DecidableEq κ] in
/-- A dictionary is its entries. -/
theorem ext_entries {d d' : Dict κ ν} (h : d.entries = d'.entries) : d = d' := by
  rcases d with ⟨entries, _⟩
  rcases d' with ⟨entries', _⟩
  simpa using h

theorem setL_of_lookupL_none {k : κ} {l : List (κ × ν)} (v : ν) (h : lookupL k l = none) :
    setL k v l = l ++ [(k, v)] := by
  induction l with
  | nil => rfl
  | cons entry rest ih =>
      rcases entry with ⟨k', v'⟩
      by_cases hk : k' = k
      · simp [lookupL, hk] at h
      · rw [lookupL_cons_ne hk] at h
        rw [setL_cons_ne hk, ih h, List.cons_append]

/-- Storing under a new key appends. -/
theorem entries_set_of_none (d : Dict κ ν) {k : κ} (v : ν) (h : d.get? k = none) :
    (d.set k v).entries = d.entries ++ [(k, v)] := setL_of_lookupL_none v h

/-- Removing a key that is not there changes nothing. -/
theorem erase_of_none (d : Dict κ ν) {k : κ} (h : d.get? k = none) : d.erase k = d := by
  refine ext_entries (List.filter_eq_self.mpr fun entry hmem => ?_)
  have hne : entry.1 ≠ k := fun heq =>
    lookupL_eq_none.mp h (heq ▸ List.mem_map_of_mem hmem)
  simp [hne]

/-- Removing a key that was new brings the dictionary back. -/
theorem erase_set_of_none (d : Dict κ ν) {k : κ} (v : ν) (h : d.get? k = none) :
    (d.set k v).erase k = d := by
  have herased := congrArg Dict.entries (erase_of_none d h)
  refine ext_entries ?_
  change (d.set k v).entries.filter _ = _
  rw [entries_set_of_none d v h, List.filter_append]
  change d.entries.filter _ = _ at herased
  rw [herased]
  simp

/-- Storing the value that is there changes nothing. -/
theorem set_of_get? (d : Dict κ ν) {k : κ} {v : ν} (h : d.get? k = some v) : d.set k v = d :=
  ext_entries (setL_of_lookupL h)

/-- The later of two stores under a key stays. -/
theorem set_set (d : Dict κ ν) (k : κ) (v w : ν) : (d.set k v).set k w = d.set k w :=
  ext_entries (setL_setL_self k v w d.entries)

theorem keys_set_of_some (d : Dict κ ν) {k : κ} {v : ν} (w : ν) (h : d.get? k = some v) :
    (d.set k w).keys = d.keys := by
  have hmem : k ∈ d.entries.map Prod.fst := (mem_keys_iff d k).mpr ⟨v, h⟩
  unfold keys set
  rw [map_fst_setL, if_pos hmem]

theorem keys_set_of_none (d : Dict κ ν) {k : κ} (w : ν) (h : d.get? k = none) :
    (d.set k w).keys = d.keys ++ [k] := by
  unfold keys set
  rw [map_fst_setL, if_neg (lookupL_eq_none.mp h)]

theorem keys_erase (d : Dict κ ν) (k : κ) : (d.erase k).keys = d.keys.filter fun k' => k' ≠ k := by
  unfold keys erase eraseWhere
  rw [List.filter_map]
  refine congrArg (List.map Prod.fst) (List.filter_congr fun entry _ => ?_)
  simp [Function.comp]

/-- Dictionaries with the same keys in the same order and the same values. -/
theorem ext_keys {d d' : Dict κ ν} (hkeys : d.keys = d'.keys) (hget : ∀ k, d.get? k = d'.get? k) :
    d = d' := by
  have hentries : ∀ d : Dict κ ν, d.entries.map some =
      d.keys.map fun k => (d.get? k).map fun v => (k, v) := by
    intro d
    unfold keys
    rw [List.map_map]
    refine List.map_congr_left fun entry hmem => ?_
    rw [Function.comp_apply, (mem_entries_iff d entry.1 entry.2).mp hmem]
    rfl
  refine ext_entries (List.map_injective_iff.mpr (fun _ _ h => Option.some.inj h) ?_)
  rw [hentries, hentries, hkeys]
  exact List.map_congr_left fun k _ => by rw [hget]

/-- Store the entries in order, so that the last one under a key stays. -/
def setAll (d : Dict κ ν) (entries : List (κ × ν)) : Dict κ ν :=
  entries.foldl (fun d entry => d.set entry.1 entry.2) d

/-- New keys are appended. -/
theorem entries_setAll_of_nodup (entries : List (κ × ν)) (d : Dict κ ν)
    (h : (d.keys ++ entries.map Prod.fst).Nodup) :
    (d.setAll entries).entries = d.entries ++ entries := by
  induction entries generalizing d with
  | nil => exact (List.append_nil _).symm
  | cons entry rest ih =>
      rcases entry with ⟨k, v⟩
      have hk : k ∉ d.keys := fun hmem =>
        (List.nodup_append.mp h).2.2 k hmem k List.mem_cons_self rfl
      have hset : (d.set k v).entries = d.entries ++ [(k, v)] :=
        entries_set_of_none d v (lookupL_eq_none.mpr hk)
      have hkeys : (d.set k v).keys = d.keys ++ [k] := by
        rw [keys, hset, List.map_append]
        rfl
      have hrest := ih (d.set k v) (by
        rw [hkeys, List.append_assoc]
        exact h)
      rw [hset, List.append_assoc] at hrest
      exact hrest

/-- A dictionary is what its entries make when they are stored in order. -/
theorem setAll_entries (d : Dict κ ν) : empty.setAll d.entries = d :=
  ext_entries (entries_setAll_of_nodup d.entries empty d.nodup)

theorem get?_setAll_of_not_mem (entries : List (κ × ν)) (k : κ) (hk : k ∉ entries.map Prod.fst)
    (d : Dict κ ν) : (d.setAll entries).get? k = d.get? k := by
  induction entries generalizing d with
  | nil => rfl
  | cons entry rest ih =>
      simp only [List.map_cons, List.mem_cons, not_or] at hk
      exact (ih hk.2 (d.set entry.1 entry.2)).trans (get?_set_ne d entry.2 hk.1)

/-- Where all entries under a key hold one value, that value is found. -/
theorem get?_setAll_of_mem (entries : List (κ × ν)) (k : κ) (v : ν) (hmem : (k, v) ∈ entries)
    (huniq : ∀ w, (k, w) ∈ entries → w = v) (d : Dict κ ν) :
    (d.setAll entries).get? k = some v := by
  induction entries generalizing d with
  | nil => simp at hmem
  | cons entry rest ih =>
      by_cases hrest : ∃ w, (k, w) ∈ rest
      · obtain ⟨w, hw⟩ := hrest
        have hwv : w = v := huniq w (List.mem_cons_of_mem entry hw)
        rw [hwv] at hw
        exact ih hw (fun w hw => huniq w (List.mem_cons_of_mem entry hw)) _
      · have hnot : k ∉ rest.map Prod.fst := by
          intro hk
          obtain ⟨⟨k', w⟩, hw, heq⟩ := List.mem_map.mp hk
          cases heq
          exact hrest ⟨w, hw⟩
        have hhead : (k, v) = entry := by
          rcases List.mem_cons.mp hmem with heq | hin
          · exact heq
          · exact absurd ⟨v, hin⟩ hrest
        refine (get?_setAll_of_not_mem rest k hnot _).trans ?_
        rw [← hhead, get?_set_self]

/-- What is found after storing entries was found before or is one of them. -/
theorem mem_of_get?_setAll (entries : List (κ × ν)) (k : κ) (v : ν) (d : Dict κ ν)
    (h : (d.setAll entries).get? k = some v) : (k, v) ∈ entries ∨ d.get? k = some v := by
  induction entries generalizing d with
  | nil => exact .inr h
  | cons entry rest ih =>
      rcases ih (d.set entry.1 entry.2) h with hmem | hget
      · exact .inl (List.mem_cons_of_mem entry hmem)
      · by_cases hk : k = entry.1
        · rw [hk, get?_set_self, Option.some.injEq] at hget
          refine .inl (List.mem_cons.mpr (.inl ?_))
          rw [hk, ← hget]
        · rw [get?_set_ne d entry.2 hk] at hget
          exact .inr hget

/-- Every entry stored is one of the dictionary's or of the list. -/
theorem mem_entries_setAll (entries : List (κ × ν)) (d : Dict κ ν) (entry : κ × ν)
    (h : entry ∈ (d.setAll entries).entries) : entry ∈ d.entries ∨ entry ∈ entries := by
  rcases mem_of_get?_setAll entries entry.1 entry.2 d
    ((mem_entries_iff _ _ _).mp h) with hmem | hget
  · exact .inr hmem
  · exact .inl ((mem_entries_iff _ _ _).mpr hget)

theorem setL_map {μ : Type} (f : ν → μ) (k : κ) (v : ν) (l : List (κ × ν)) :
    setL k (f v) (l.map fun e => (e.1, f e.2)) = (setL k v l).map fun e => (e.1, f e.2) := by
  induction l with
  | nil => rfl
  | cons e rest ih =>
      rcases e with ⟨k', v'⟩
      by_cases hk : k' = k
      · subst hk
        rw [List.map_cons, setL_cons_self, setL_cons_self, List.map_cons]
      · rw [List.map_cons, setL_cons_ne hk, setL_cons_ne hk, ih, List.map_cons]

/-- Storing images finds the image of what storing finds. -/
theorem get?_setAll_map {μ : Type} (f : ν → μ) (entries : List (κ × ν)) (k : κ) (d : Dict κ ν)
    (d' : Dict κ μ) (h : ∀ k, d'.get? k = (d.get? k).map f) :
    (d'.setAll (entries.map fun e => (e.1, f e.2))).get? k = ((d.setAll entries).get? k).map f := by
  induction entries generalizing d d' with
  | nil => exact h k
  | cons entry rest ih =>
      refine ih (d.set entry.1 entry.2) (d'.set entry.1 (f entry.2)) fun k => ?_
      rw [get?_set, get?_set]
      split
      · rfl
      · exact h k

theorem exists_get?_setAll (entries : List (κ × ν)) (k : κ) (hk : k ∈ entries.map Prod.fst)
    (d : Dict κ ν) : ∃ v, (d.setAll entries).get? k = some v := by
  induction entries generalizing d with
  | nil => cases hk
  | cons entry rest ih =>
      by_cases hrest : k ∈ rest.map Prod.fst
      · exact ih hrest _
      · have hhead : k = entry.1 := by
          rcases List.mem_cons.mp hk with heq | hin
          · exact heq
          · exact absurd hin hrest
        refine ⟨entry.2, (get?_setAll_of_not_mem rest k hrest _).trans ?_⟩
        rw [hhead, get?_set_self]

/-- Of entries under one key the last one is found. -/
theorem get?_setAll_empty (entries : List (κ × ν)) (k : κ) :
    (empty.setAll entries).get? k =
      (entries.reverse.find? fun entry => entry.1 = k).map Prod.snd := by
  induction entries using List.reverseRecOn with
  | nil => rfl
  | append_singleton rest entry ih =>
      have hlast : empty.setAll (rest ++ [entry]) = (empty.setAll rest).set entry.1 entry.2 := by
        rw [setAll, List.foldl_append]
        rfl
      rw [hlast, get?_set, List.reverse_append, List.reverse_singleton, List.singleton_append,
        List.find?_cons]
      by_cases hk : k = entry.1
      · simp [hk]
      · simp [hk, ih, Ne.symm hk]

/-!
### Counting

A dictionary that grows by one key counts one more at most.
-/

section Counts

variable (d : Dict κ ν) (p : κ × ν → Bool)

/-- A store counts for one more at most. -/
theorem countP_set_le (k : κ) (v : ν) :
    (d.set k v).entries.countP p ≤ d.entries.countP p + if p (k, v) then 1 else 0 := by
  rcases h : d.get? k with _ | w
  · refine Nat.le_of_eq ?_
    rw [entries_set_of_none d v h, List.countP_append, List.countP_singleton]
  · have hcount := countP_setL (v := v) p (show lookupL k d.entries = some w from h)
    refine show (setL k v d.entries).countP p ≤ _ from ?_
    omega

/-- A store in place of what counted. -/
theorem countP_set_le_of_imp {k : κ} {v w : ν} (h : d.get? k = some w)
    (hp : p (k, v) = true → p (k, w) = true) :
    (d.set k v).entries.countP p ≤ d.entries.countP p := by
  have hcount := countP_setL (v := v) p (show lookupL k d.entries = some w from h)
  refine show (setL k v d.entries).countP p ≤ _ from ?_
  by_cases hv : p (k, v) = true
  · rw [if_pos hv, if_pos (hp hv)] at hcount
    omega
  · rw [if_neg hv] at hcount
    omega

theorem countP_erase_le (k : κ) : (d.erase k).entries.countP p ≤ d.entries.countP p :=
  List.filter_sublist.countP_le

omit [DecidableEq κ] in
theorem countP_mapVals_le (f : κ → ν → ν) (hp : ∀ k v, p (k, f k v) = true → p (k, v) = true) :
    (d.mapVals f).entries.countP p ≤ d.entries.countP p := by
  refine show (d.entries.map _).countP p ≤ _ from ?_
  rw [List.countP_map]
  exact List.countP_mono_left fun entry _ h => hp entry.1 entry.2 h

end Counts

end Dict

end STS2RL
