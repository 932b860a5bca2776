import AgentMesh.Dict
import Mathlib.Data.Finset.Card
import Mathlib.Data.List.Dedup

/-!
Tables under overlays, removals and counting. A table is as large as its set of keys, so a part of a
table that is no smaller than the whole is the whole (`Dict.eq_of_get?_imp`).
-/

namespace AgentMesh.Dict

variable {β γ : Type}

theorem get?_eraseAll (d : Dict β) (ks : List String) (k : String) :
    (d.eraseAll ks).get? k = if k ∈ ks then none else d.get? k := by
  induction ks generalizing d with
  | nil => simp [eraseAll]
  | cons x r ih =>
    have hh := ih (d.erase x)
    by_cases hx : x = k
    · subst x
      simpa [eraseAll, get?_erase] using hh
    · simpa [eraseAll, get?_erase, hx, Ne.symm hx] using hh

theorem insert_insert (d : Dict β) (k : String) (v w : β) :
    (d.insert k v).insert k w = d.insert k w := by
  refine ext_get? fun k' => ?_
  by_cases hk : k = k' <;> simp [get?_insert, hk]

theorem get?_insert_of_none {d : Dict β} {k k' : String} {v : β} (hnew : d.get? k = none) (w : β)
    (hv : d.get? k' = some v) : (d.insert k w).get? k' = some v := by
  have hk : k ≠ k' := by
    intro he
    rw [he, hv] at hnew
    cases hnew
  rw [get?_insert_of_ne d w hk, hv]

theorem get?_mapValues (f : β → γ) (d : Dict β) (k : String) :
    (d.mapValues f).get? k = (d.get? k).map f := by
  obtain ⟨l, hl⟩ := d
  change lookup k (l.map fun e => (e.1, f e.2)) = (lookup k l).map f
  clear hl
  induction l with
  | nil => rfl
  | cons e r ih =>
    by_cases he : e.1 = k <;> simp [lookup, he, ih]

theorem mapValues_mapValues {δ : Type} (f : β → γ) (g : γ → δ) (d : Dict β) :
    (d.mapValues f).mapValues g = d.mapValues (g ∘ f) := by
  refine ext_get? fun k => ?_
  rw [get?_mapValues, get?_mapValues, get?_mapValues, Option.map_map]

theorem get?_modify (d : Dict β) (k : String) (f : β → β) (k' : String) :
    (d.modify k f).get? k' = if k = k' then (d.get? k').map f else d.get? k' := by
  unfold modify
  by_cases hk : k = k'
  · subst k'
    cases h : d.get? k <;> simp [h]
  · cases h : d.get? k <;> simp [hk, get?_insert]

theorem modify_of_some {d : Dict β} {k : String} {v : β} (h : d.get? k = some v) (f : β → β) :
    d.modify k f = d.insert k (f v) := by
  simp [modify, h]

theorem mapValues_insert (f : β → γ) (d : Dict β) (k : String) (v : β) :
    (d.insert k v).mapValues f = (d.mapValues f).insert k (f v) := by
  refine ext_get? fun k' => ?_
  rw [get?_mapValues, get?_insert, get?_insert, get?_mapValues]
  split <;> rfl

theorem mapValues_modify (f : β → γ) {g : β → β} {h : γ → γ} (hcomm : ∀ v, f (g v) = h (f v))
    (d : Dict β) (k : String) : (d.modify k g).mapValues f = (d.mapValues f).modify k h := by
  refine ext_get? fun k' => ?_
  rw [get?_mapValues, get?_modify, get?_modify, get?_mapValues]
  split
  · cases d.get? k' <;> simp [hcomm]
  · rfl

theorem get?_insertAll_of_sorted (d : Dict β) {l : List (String × β)}
    (hl : l.Pairwise (fun a b => a.1 < b.1)) (k : String) :
    (d.insertAll l).get? k = (lookup k l).or (d.get? k) := by
  induction l generalizing d with
  | nil => rfl
  | cons e r ih =>
    have hp := List.pairwise_cons.mp hl
    have hh := ih (d.insert e.1 e.2) hp.2
    by_cases he : e.1 = k
    · have hr : lookup k r = none :=
        lookup_eq_none (fun x hx hk => String.lt_irrefl _ (he ▸ hk ▸ hp.1 x hx))
      simpa [insertAll, lookup, he, hr, get?_insert] using hh
    · simpa [insertAll, lookup, he, get?_insert] using hh

theorem get?_insertAll_eq_some {d : Dict β} {l : List (String × β)} {k : String} {v : β}
    (hv : ∀ e ∈ l, e.1 = k → e.2 = v) (hk : k ∈ l.map (·.1) ∨ d.get? k = some v) :
    (d.insertAll l).get? k = some v := by
  induction l generalizing d with
  | nil => simpa [insertAll] using hk
  | cons e r ih =>
    have hr : ∀ x ∈ r, x.1 = k → x.2 = v := fun x hx => hv x (List.mem_cons_of_mem e hx)
    have hk' : k ∈ r.map (·.1) ∨ (d.insert e.1 e.2).get? k = some v := by
      by_cases he : e.1 = k
      · right
        simp [he, hv e List.mem_cons_self he]
      · simpa [get?_insert, he, Ne.symm he] using hk
    exact ih hr hk'

theorem get?_merge (d e : Dict β) (k : String) :
    (d.merge e).get? k = (e.get? k).or (d.get? k) :=
  get?_insertAll_of_sorted d e.sorted k

theorem mem_of_get?_insertAll {d : Dict β} {l : List (String × β)} {k : String} {v : β}
    (h : (d.insertAll l).get? k = some v) : (k, v) ∈ l ∨ d.get? k = some v := by
  induction l generalizing d with
  | nil => exact Or.inr h
  | cons e r ih =>
    rcases ih h with hr | hd
    · exact Or.inl (List.mem_cons_of_mem e hr)
    · rw [get?_insert] at hd
      split at hd
      · next he =>
        have hv : e.2 = v := Option.some.inj hd
        exact Or.inl (List.mem_cons.mpr (Or.inl (Prod.ext he.symm hv.symm)))
      · exact Or.inr hd

theorem mem_of_get?_ofList {l : List (String × β)} {k : String} {v : β}
    (h : (ofList l).get? k = some v) : (k, v) ∈ l := by
  rcases mem_of_get?_insertAll h with hl | hd
  · exact hl
  · simp at hd

@[simp] theorem merge_empty (d : Dict β) : d.merge empty = d := rfl

@[simp] theorem empty_merge (d : Dict β) : empty.merge d = d :=
  ext_get? fun k => by simp [get?_merge]

@[simp] theorem merge_self (d : Dict β) : d.merge d = d :=
  ext_get? fun k => by cases h : d.get? k <;> simp [get?_merge, h]

theorem merge_merge_self (d e : Dict β) : d.merge (d.merge e) = d.merge e :=
  ext_get? fun k => by cases h : e.get? k <;> cases h' : d.get? k <;> simp [get?_merge, h, h']

theorem merge_merge_same (d e : Dict β) : (d.merge e).merge e = d.merge e :=
  ext_get? fun k => by cases h : e.get? k <;> simp [get?_merge, h]

theorem ofList_entries (d : Dict β) : ofList d.entries = d := empty_merge d

theorem nodup_keys (d : Dict β) : d.keys.Nodup :=
  List.Pairwise.map _ (fun _ _ h => String.ne_of_lt h) d.sorted

theorem pairwise_keys (d : Dict β) : d.keys.Pairwise (· < ·) := d.sorted.map _ fun _ _ h => h

theorem mem_keys {d : Dict β} {k : String} : k ∈ d.keys ↔ (d.get? k).isSome := by
  simp only [keys, List.mem_map, Option.isSome_iff_exists, get?_eq_some_iff]
  constructor
  · rintro ⟨e, he, rfl⟩
    exact ⟨e.2, he⟩
  · rintro ⟨v, hv⟩
    exact ⟨(k, v), hv, rfl⟩

@[simp] theorem keys_mapValues (f : β → γ) (d : Dict β) : (d.mapValues f).keys = d.keys := by
  simp [keys, mapValues]

theorem keys_eq {d : Dict β} {e : Dict γ} (h : ∀ k, (d.get? k).isSome ↔ (e.get? k).isSome) :
    d.keys = e.keys := by
  have hu : d.mapValues (fun _ => ()) = e.mapValues (fun _ => ()) := by
    refine ext_get? fun k => ?_
    have hk := h k
    cases hd : d.get? k <;> cases he : e.get? k <;> simp_all [get?_mapValues]
  rw [← keys_mapValues (fun _ => ()) d, hu, keys_mapValues]

theorem length_keys (d : Dict β) : d.keys.length = d.size := by
  rw [keys, List.length_map, size]

theorem size_eq_card (d : Dict β) : d.size = d.keys.toFinset.card := by
  rw [List.toFinset_card_of_nodup d.nodup_keys, length_keys]

theorem toFinset_keys_insert (d : Dict β) (k : String) (v : β) :
    (d.insert k v).keys.toFinset = Insert.insert k d.keys.toFinset := by
  ext x
  by_cases hx : k = x
  · simp [mem_keys, hx]
  · simp [mem_keys, get?_insert, hx, Ne.symm hx]

theorem size_insert (d : Dict β) (k : String) (v : β) :
    (d.insert k v).size = if (d.get? k).isSome then d.size else d.size + 1 := by
  rw [size_eq_card, size_eq_card, toFinset_keys_insert, Finset.card_insert_eq_ite]
  simp only [List.mem_toFinset, mem_keys]

theorem size_insert_le (d : Dict β) (k : String) (v : β) :
    (d.insert k v).size ≤ d.size + 1 := by
  rw [size_insert]
  split <;> omega

theorem size_pos_of_get? {d : Dict β} {k : String} (h : (d.get? k).isSome) : 0 < d.size := by
  rw [size_eq_card]
  exact Finset.card_pos.mpr ⟨k, List.mem_toFinset.mpr (mem_keys.mpr h)⟩

@[simp] theorem size_mapValues (f : β → γ) (d : Dict β) : (d.mapValues f).size = d.size := by
  simp [size, mapValues]

theorem toFinset_keys_insertAll (d : Dict β) (l : List (String × β)) :
    (d.insertAll l).keys.toFinset = (l.map (·.1)).toFinset ∪ d.keys.toFinset := by
  induction l generalizing d with
  | nil => simp [insertAll]
  | cons e r ih =>
    have hh := ih (d.insert e.1 e.2)
    simpa [insertAll, toFinset_keys_insert, Finset.insert_union] using hh

theorem size_ofList (l : List (String × β)) :
    (ofList l).size = (l.map (·.1)).dedup.length := by
  rw [size_eq_card, ofList, toFinset_keys_insertAll, ← List.card_toFinset]
  simp [keys, empty]

theorem size_le_of_isSome_imp {d : Dict β} {e : Dict γ}
    (h : ∀ k, (d.get? k).isSome → (e.get? k).isSome) : d.size ≤ e.size := by
  rw [size_eq_card, size_eq_card]
  refine Finset.card_le_card fun k hk => ?_
  rw [List.mem_toFinset, mem_keys] at hk ⊢
  exact h k hk

theorem eq_of_get?_imp {d e : Dict β} (h : ∀ k v, d.get? k = some v → e.get? k = some v)
    (hs : e.size ≤ d.size) : d = e := by
  have hsub : d.keys.toFinset ⊆ e.keys.toFinset := by
    intro k hk
    obtain ⟨v, hv⟩ := Option.isSome_iff_exists.mp (mem_keys.mp (List.mem_toFinset.mp hk))
    simp [mem_keys, h k v hv]
  have hkeys : d.keys.toFinset = e.keys.toFinset :=
    Finset.eq_of_subset_of_card_le hsub (by simpa only [← size_eq_card] using hs)
  refine ext_get? fun k => ?_
  cases hd : d.get? k with
  | some v => exact (h k v hd).symm
  | none =>
    have hk : k ∉ e.keys.toFinset := by
      rw [← hkeys, List.mem_toFinset, mem_keys, hd]
      simp
    rw [List.mem_toFinset, mem_keys] at hk
    exact (Option.not_isSome_iff_eq_none.mp hk).symm

theorem insert_erase {d : Dict β} {k : String} {v : β} (h : d.get? k = some v) :
    (d.erase k).insert k v = d := by
  refine ext_get? fun k' => ?_
  by_cases hk : k = k'
  · subst hk
    simp [h]
  · simp [get?_insert, get?_erase, hk]

theorem size_erase {d : Dict β} {k : String} (h : (d.get? k).isSome) :
    (d.erase k).size + 1 = d.size := by
  obtain ⟨v, hv⟩ := Option.isSome_iff_exists.mp h
  have hs := size_insert (d.erase k) k v
  rw [insert_erase hv] at hs
  simp [hs, get?_erase]

theorem length_values (d : Dict β) : d.values.length = d.size := by
  rw [values, List.length_map, size]

theorem mem_values {d : Dict β} {v : β} : v ∈ d.values ↔ ∃ k, d.get? k = some v := by
  simp only [values, List.mem_map, get?_eq_some_iff]
  constructor
  · rintro ⟨e, he, rfl⟩
    exact ⟨e.1, he⟩
  · rintro ⟨k, hk⟩
    exact ⟨(k, v), hk, rfl⟩

theorem erase_of_none {d : Dict β} {k : String} (h : d.get? k = none) : d.erase k = d := by
  refine ext_get? fun k' => ?_
  rw [get?_erase]
  split
  · next hk => rw [← hk, h]
  · rfl

theorem nodup_entries (d : Dict β) : d.entries.Nodup := List.Nodup.of_map _ d.nodup_keys

theorem values_insert (d : Dict β) (k : String) (v : β) :
    (d.insert k v).values.Perm (v :: (d.erase k).values) := by
  have hnew : (k, v) ∉ (d.erase k).entries := by
    rw [← get?_eq_some_iff, get?_erase, if_pos rfl]
    simp
  have he : (d.insert k v).entries.Perm ((k, v) :: (d.erase k).entries) := by
    refine (List.perm_ext_iff_of_nodup (nodup_entries _)
      (List.nodup_cons.mpr ⟨hnew, nodup_entries _⟩)).mpr fun ⟨k', v'⟩ => ?_
    rw [List.mem_cons, ← get?_eq_some_iff, ← get?_eq_some_iff, get?_insert, get?_erase]
    by_cases hk : k = k'
    · simp [hk, eq_comm]
    · simp [hk, Ne.symm hk]
  exact he.map (·.2)

theorem values_erase {d : Dict β} {k : String} {v : β} (h : d.get? k = some v) :
    d.values.Perm (v :: (d.erase k).values) := by
  have hp := values_insert (d.erase k) k v
  rwa [insert_erase h, erase_of_none (by simp [get?_erase])] at hp

theorem values_insert_append (d : Dict β) (k : String) (v : β) :
    ((d.insert k v).values ++ (d.get? k).toList).Perm (v :: d.values) := by
  cases h : d.get? k with
  | none =>
    have hnew := values_insert d k v
    rwa [erase_of_none h, ← List.append_nil (d.insert k v).values] at hnew
  | some x =>
    have hold : (v :: d.values).Perm (v :: x :: (d.erase k).values) := (values_erase h).cons v
    have hnew := (values_insert d k v).append_right [x]
    exact hnew.trans (((List.perm_append_singleton x _).cons v).trans hold.symm)

theorem isSome_get?_ofList (l : List (String × β)) (k : String) :
    ((ofList l).get? k).isSome ↔ k ∈ l.map (·.1) := by
  rw [← mem_keys, ← List.mem_toFinset, ofList, toFinset_keys_insertAll]
  simp [keys, empty]

theorem get?_ofList_of_mem {l : List (String × β)} {k : String} {v : β} (hmem : (k, v) ∈ l)
    (hv : ∀ e ∈ l, e.1 = k → e.2 = v) : (ofList l).get? k = some v :=
  get?_insertAll_eq_some hv (Or.inl (List.mem_map.mpr ⟨(k, v), hmem, rfl⟩))

theorem get?_ofList_of_nodup {l : List (String × β)} (hkeys : (l.map (·.1)).Nodup)
    {e : String × β} (he : e ∈ l) : (ofList l).get? e.1 = some e.2 :=
  get?_ofList_of_mem he fun _ hg hk => congrArg Prod.snd (List.inj_on_of_nodup_map hkeys hg he hk)

theorem entries_ofList_perm {l : List (String × β)} (hkeys : (l.map (·.1)).Nodup) :
    (ofList l).entries.Perm l := by
  refine (List.perm_ext_iff_of_nodup (nodup_entries _) hkeys.of_map).mpr fun e => ?_
  rw [← Prod.eta e, ← get?_eq_some_iff]
  exact ⟨mem_of_get?_ofList, get?_ofList_of_nodup hkeys⟩

theorem get?_ofList_map (ks : List String) (f : String → β) (k : String) :
    (ofList (ks.map fun k => (k, f k))).get? k = if k ∈ ks then some (f k) else none := by
  split
  · next hk =>
    refine get?_ofList_of_mem (List.mem_map_of_mem hk) fun e he hek => ?_
    obtain ⟨k', -, rfl⟩ := List.mem_map.mp he
    exact congrArg f hek
  · next hk =>
    have hs := isSome_get?_ofList (ks.map fun k => (k, f k)) k
    rw [List.map_map] at hs
    simpa [Function.comp_def, hk] using hs

end AgentMesh.Dict
