import Mathlib.Data.List.AList
import Mathlib.Data.List.MinMax

/-! # Tables

Finite maps with one value for a key, as association lists. Beyond the operations
of `AList` there are those that go through all entries: keeping some, counting
some, and finding one with the least value of a function. The order in which a
hash map lists its entries is not determined, so it is a parameter. -/

/-- A finite map. -/
abbrev Table (K V : Type*) := AList fun _ : K => V

namespace Table

open List Option AList

variable {K V : Type*} [DecidableEq K] {t t' : Table K V} {k k' : K} {v v' : V}

/-- The order in which the entries are listed at some time. -/
structure Iteration (K V : Type*) where
  order : List (Sigma fun _ : K => V) → List (Sigma fun _ : K => V)
  perm : ∀ entries, (order entries).Perm entries

def Iteration.stored (K V : Type*) : Iteration K V := ⟨id, fun _ => .refl _⟩

/-! ## Tables with fewer entries -/

/-- Every entry of the one is an entry of the other. -/
def Sub (t t' : Table K V) : Prop := ∀ k v, t.lookup k = some v → t'.lookup k = some v

theorem Sub.refl (t : Table K V) : Sub t t := fun _ _ h => h

theorem Sub.trans {t'' : Table K V} (h : Sub t t') (h' : Sub t' t'') : Sub t t'' :=
  fun k v hk => h' k v (h k v hk)

theorem erase_sub (k : K) (t : Table K V) : Sub (t.erase k) t := by
  intro k' v h
  by_cases hk : k' = k
  · subst hk
    rw [lookup_erase] at h
    cases h
  · rwa [lookup_erase_ne hk] at h

/-- A new key hides nothing. -/
theorem sub_insert (h : t.lookup k = none) (v : V) : Sub t (t.insert k v) := by
  intro k' v' hk'
  have hne : k' ≠ k := by
    rintro rfl
    rw [h] at hk'
    cases hk'
  rwa [lookup_insert_ne hne]

variable (p : K → V → Bool)

/-- Keep the entries that satisfy `p`. -/
def retain (t : Table K V) : Table K V where
  entries := t.entries.filter fun e => p e.1 e.2
  nodupKeys := t.nodupKeys.sublist filter_sublist

theorem retain_sub (t : Table K V) : Sub (t.retain p) t := by
  intro k v h
  rw [← mem_def, mem_lookup_iff] at h ⊢
  exact mem_of_mem_filter h

theorem lookup_retain (t : Table K V) (k : K) :
    (t.retain p).lookup k = (t.lookup k).filter (p k) := by
  refine Option.ext fun v => ?_
  rw [filter_eq_some_iff, ← mem_def, ← mem_def, mem_lookup_iff, mem_lookup_iff]
  exact mem_filter

variable {p}

theorem lookup_retain_of_pos (h : ∀ v, p k v = true) : (t.retain p).lookup k = t.lookup k := by
  rw [lookup_retain]
  cases t.lookup k with
  | none => rfl
  | some v => rw [filter_some, if_pos (h v)]

theorem lookup_retain_of_neg (h : ∀ v, p k v = false) : (t.retain p).lookup k = none := by
  rw [lookup_retain, filter_eq_none_iff]
  intro v _
  simp [h v]

variable (p)

def eraseKeys (ks : List K) (t : Table K V) : Table K V := ks.foldl (fun t k => t.erase k) t

theorem eraseKeys_sub (ks : List K) (t : Table K V) : Sub (t.eraseKeys ks) t := by
  induction ks generalizing t with
  | nil => exact Sub.refl t
  | cons k _ ih => exact (ih _).trans (erase_sub k t)

/-- The key of an entry that is least under `f`, the first one in the order given. -/
def leastKey (order : Iteration K V) (f : V → Nat) (t : Table K V) : Option K :=
  ((order.order t.entries).argmin fun e => f e.2).map Sigma.fst

/-- Erase least entries until there are fewer than `n`, or none at all. The fuel is
the number of entries. -/
def eraseLeast (order : Iteration K V) (f : V → Nat) (n : Nat) : Nat → Table K V → Table K V
  | 0, t => t
  | fuel + 1, t =>
      if n ≤ t.entries.length then
        match t.leastKey order f with
        | some k => eraseLeast order f n fuel (t.erase k)
        | none => t
      else t

theorem eraseLeast_sub (order : Iteration K V) (f : V → Nat) (n fuel : Nat) (t : Table K V) :
    Sub (t.eraseLeast order f n fuel) t := by
  induction fuel generalizing t with
  | zero => exact Sub.refl t
  | succ _ ih =>
    rw [eraseLeast]
    split
    · split
      · exact (ih _).trans (erase_sub _ t)
      · exact Sub.refl t
    · exact Sub.refl t

/-! ## Counting -/

/-- The number of entries whose value satisfies `p`. -/
def count (p : V → Bool) (t : Table K V) : Nat := t.entries.countP fun e => p e.2

theorem count_erase (p : V → Bool) (h : t.lookup k = some v) :
    count p (t.erase k) + (if p v then 1 else 0) = count p t := by
  have hmem : k ∈ t.entries.keys := lookup_isSome.mp (isSome_of_eq_some h)
  obtain ⟨w, before, behind, -, hentries, herase⟩ := exists_of_kerase hmem
  have hw : w = v := by
    have hentry : (⟨k, w⟩ : Sigma fun _ : K => V) ∈ t.entries := by simp [hentries]
    have hlookup : w ∈ t.lookup k := mem_lookup_iff.mpr hentry
    rw [h] at hlookup
    exact (Option.some.inj hlookup).symm
  subst hw
  show (List.kerase k t.entries).countP _ + _ = t.entries.countP _
  rw [herase, hentries, countP_append, countP_append, countP_cons]
  dsimp only
  omega

theorem count_erase_le (p : V → Bool) (k : K) (t : Table K V) : count p (t.erase k) ≤ count p t :=
  (kerase_sublist k t.entries).countP_le

theorem count_insert (p : V → Bool) (k : K) (v : V) (t : Table K V) :
    count p (t.insert k v) = count p (t.erase k) + (if p v then 1 else 0) := by
  show (t.insert k v).entries.countP _ = (List.kerase k t.entries).countP _ + _
  rw [entries_insert, countP_cons]

theorem length_insert_le (k : K) (v : V) (t : Table K V) :
    (t.insert k v).entries.length ≤ t.entries.length + 1 := by
  exact Nat.succ_le_succ (kerase_sublist k t.entries).length_le

theorem length_erase_le (k : K) (t : Table K V) : (t.erase k).entries.length ≤ t.entries.length :=
  (kerase_sublist k t.entries).length_le

omit [DecidableEq K] in
/-- Keys that are there, and each of them once, are no more than the entries. -/
theorem length_le_of_nodup {ks : List K} (hnodup : ks.Nodup) (h : ∀ k ∈ ks, k ∈ t) :
    ks.length ≤ t.entries.length := by
  have hkeys : ks ⊆ t.keys := fun k hk => mem_keys.mp (h k hk)
  have hle := (subperm_of_subset hnodup hkeys).length_le
  rwa [AList.keys, List.keys, length_map] at hle

theorem length_erase_add_one (h : t.lookup k = some v) :
    (t.erase k).entries.length + 1 = t.entries.length := by
  have hone := count_erase (fun _ => true) h
  simpa only [count, countP_true, if_true] using hone

theorem length_eraseKeys {ks : List K} (hnodup : ks.Nodup) (h : ∀ k ∈ ks, k ∈ t) :
    (t.eraseKeys ks).entries.length + ks.length = t.entries.length := by
  induction ks generalizing t with
  | nil => rfl
  | cons k ks ih =>
    obtain ⟨hfresh, hnodup⟩ := nodup_cons.mp hnodup
    obtain ⟨v, hv⟩ := isSome_iff_exists.mp (lookup_isSome.mpr (h k (by simp)))
    have hrest : ∀ k' ∈ ks, k' ∈ t.erase k := by
      intro k' hk'
      refine mem_erase.mpr ⟨fun heq => hfresh (heq ▸ hk'), ?_⟩
      exact h k' (mem_cons_of_mem k hk')
    have hone := length_erase_add_one hv
    have hall : (t.eraseKeys (k :: ks)).entries.length + ks.length = (t.erase k).entries.length :=
      ih hnodup hrest
    rw [length_cons]
    omega

variable {order : Iteration K V} {f : V → Nat} {n fuel : Nat}

theorem lookup_of_leastKey (h : t.leastKey order f = some k) :
    ∃ v, t.lookup k = some v ∧ ∀ k' v', t.lookup k' = some v' → f v ≤ f v' := by
  obtain ⟨⟨k, v⟩, he, rfl⟩ := map_eq_some_iff.mp h
  refine ⟨v, ?_, fun k' v' h' => ?_⟩
  · rw [← mem_def, mem_lookup_iff]
    exact (order.perm _).mem_iff.mp (argmin_mem he)
  · rw [← mem_def, mem_lookup_iff] at h'
    exact le_of_mem_argmin (f := fun e => f e.2) ((order.perm _).mem_iff.mpr h') he

/-- An entry is erased only if there are too many, and what stays is not less. -/
theorem eraseLeast_least (h : t.lookup k = some v)
    (hgone : (t.eraseLeast order f n fuel).lookup k = none) :
    n ≤ t.entries.length
      ∧ ∀ k' v', (t.eraseLeast order f n fuel).lookup k' = some v' → f v ≤ f v' := by
  induction fuel generalizing t with
  | zero => rw [eraseLeast, h] at hgone; cases hgone
  | succ fuel ih =>
    rw [eraseLeast] at hgone ⊢
    split at hgone
    · next hn =>
      rw [if_pos hn]
      refine ⟨hn, ?_⟩
      cases hleast : t.leastKey order f with
      | none => simp only [hleast, h] at hgone; cases hgone
      | some k₀ =>
        simp only [hleast] at hgone ⊢
        obtain ⟨v₀, hv₀, hmin⟩ := lookup_of_leastKey hleast
        by_cases hk : k = k₀
        · subst hk
          rw [h] at hv₀
          cases hv₀
          exact fun k' v' h' =>
            hmin k' v' (erase_sub _ t _ _ (eraseLeast_sub order f n fuel _ _ _ h'))
        · exact (ih ((lookup_erase_ne hk).trans h) hgone).2
    · rw [h] at hgone; cases hgone

theorem length_eraseLeast (hfuel : t.entries.length ≤ fuel) :
    (t.eraseLeast order f n fuel).entries.length ≤ n - 1 := by
  induction fuel generalizing t with
  | zero => rw [eraseLeast]; omega
  | succ fuel ih =>
    rw [eraseLeast]
    split
    · cases hleast : t.leastKey order f with
      | none =>
        have hempty : t.entries = [] := by
          have hnil := argmin_eq_none.mp (map_eq_none_iff.mp hleast)
          exact ((order.perm _).symm.trans (hnil ▸ .refl _)).eq_nil
        simp [hempty]
      | some k =>
        obtain ⟨v, hv, -⟩ := lookup_of_leastKey hleast
        have hlt := length_erase_add_one hv
        exact ih (by omega)
    · omega

end Table
