/-!
Finite tables keyed by text. A table holds its entries in ascending key order, so two tables with
the same look-ups are equal (`Dict.ext_get?`) and everything printed from one is sorted.
-/

namespace AgentMesh

theorem key_lt_of_not_lt_of_ne {a b : String} (h : ¬a < b) (hne : a ≠ b) : b < a := by
  apply Classical.byContradiction
  intro hba
  exact hne (String.le_antisymm (String.not_lt.mp hba) (String.not_lt.mp h))

/-- A finite table from text to `β`, in ascending key order. -/
structure Dict (β : Type) where
  entries : List (String × β)
  sorted : entries.Pairwise (fun a b => a.1 < b.1)

namespace Dict

variable {β γ : Type}

@[ext] theorem ext {d e : Dict β} (h : d.entries = e.entries) : d = e := by
  cases d; cases e; cases h; rfl

instance [DecidableEq β] : DecidableEq (Dict β) := fun d e =>
  if h : d.entries = e.entries then isTrue (ext h) else isFalse (fun he => h (he ▸ rfl))

def empty : Dict β := ⟨[], List.Pairwise.nil⟩

instance : Inhabited (Dict β) := ⟨empty⟩

def lookup (k : String) : List (String × β) → Option β
  | [] => none
  | e :: r => if e.1 = k then some e.2 else lookup k r

def get? (d : Dict β) (k : String) : Option β := lookup k d.entries

def insertEntry (k : String) (v : β) : List (String × β) → List (String × β)
  | [] => [(k, v)]
  | e :: r =>
    if k < e.1 then (k, v) :: e :: r
    else if k = e.1 then (k, v) :: r
    else e :: insertEntry k v r

theorem mem_insertEntry {k : String} {v : β} {l : List (String × β)} {x : String × β}
    (h : x ∈ insertEntry k v l) : x = (k, v) ∨ x ∈ l := by
  induction l with
  | nil => exact Or.inl (by simpa [insertEntry] using h)
  | cons e r ih =>
    unfold insertEntry at h
    split at h
    · rcases List.mem_cons.mp h with h | h
      · exact Or.inl h
      · exact Or.inr h
    · split at h
      · rcases List.mem_cons.mp h with h | h
        · exact Or.inl h
        · exact Or.inr (List.mem_cons_of_mem _ h)
      · rcases List.mem_cons.mp h with h | h
        · exact Or.inr (h ▸ List.mem_cons_self)
        · exact (ih h).imp id (List.mem_cons_of_mem _)

theorem sorted_insertEntry (k : String) (v : β) {l : List (String × β)}
    (hs : l.Pairwise (fun a b => a.1 < b.1)) :
    (insertEntry k v l).Pairwise (fun a b => a.1 < b.1) := by
  induction l with
  | nil => simp [insertEntry]
  | cons e r ih =>
    have hcons := List.pairwise_cons.mp hs
    unfold insertEntry
    split
    · next hlt =>
      refine List.pairwise_cons.mpr ⟨fun x hx => ?_, hs⟩
      rcases List.mem_cons.mp hx with rfl | hx
      · exact hlt
      · exact String.lt_trans hlt (hcons.1 x hx)
    · next hnlt =>
      split
      · next heq =>
        exact List.pairwise_cons.mpr ⟨fun x hx => heq ▸ hcons.1 x hx, hcons.2⟩
      · next hne =>
        refine List.pairwise_cons.mpr ⟨fun x hx => ?_, ih hcons.2⟩
        rcases mem_insertEntry hx with rfl | hx
        · exact key_lt_of_not_lt_of_ne hnlt hne
        · exact hcons.1 x hx

def insert (d : Dict β) (k : String) (v : β) : Dict β :=
  ⟨insertEntry k v d.entries, sorted_insertEntry k v d.sorted⟩

def erase (d : Dict β) (k : String) : Dict β :=
  ⟨d.entries.filter (fun e => e.1 != k), d.sorted.filter _⟩

def eraseAll (d : Dict β) (ks : List String) : Dict β := ks.foldl erase d

def size (d : Dict β) : Nat := d.entries.length

def keys (d : Dict β) : List String := d.entries.map (·.1)

def values (d : Dict β) : List β := d.entries.map (·.2)

def contains (d : Dict β) (k : String) : Bool := (d.get? k).isSome

def isEmpty (d : Dict β) : Bool := d.entries.isEmpty

/-- Store all entries of a list in order, so of two with the same key the later one stays. -/
def insertAll (d : Dict β) (l : List (String × β)) : Dict β :=
  l.foldl (fun d e => d.insert e.1 e.2) d

/-- The table of a list of entries; of two with the same key the later one counts. -/
def ofList (l : List (String × β)) : Dict β := insertAll empty l

/-- Overlay a second table: its entries win. -/
def merge (d e : Dict β) : Dict β := d.insertAll e.entries

def modify (d : Dict β) (k : String) (f : β → β) : Dict β :=
  match d.get? k with
  | some v => d.insert k (f v)
  | none => d

def mapValues (f : β → γ) (d : Dict β) : Dict γ :=
  ⟨d.entries.map (fun e => (e.1, f e.2)), by
    exact d.sorted.map _ (fun _ _ h => h)⟩

@[simp] theorem get?_empty (k : String) : (empty : Dict β).get? k = none := rfl

theorem lookup_eq_none {k : String} {l : List (String × β)} (h : ∀ x ∈ l, x.1 ≠ k) :
    lookup k l = none := by
  induction l with
  | nil => rfl
  | cons e r ih =>
    simp only [lookup]
    rw [if_neg (h e List.mem_cons_self), ih (fun x hx => h x (List.mem_cons_of_mem _ hx))]

theorem lookup_insertEntry (k : String) (v : β) (l : List (String × β))
    (hs : l.Pairwise (fun a b => a.1 < b.1)) (k' : String) :
    lookup k' (insertEntry k v l) = if k = k' then some v else lookup k' l := by
  induction l with
  | nil => simp [insertEntry, lookup]
  | cons e r ih =>
    have hcons := List.pairwise_cons.mp hs
    unfold insertEntry
    split
    · simp only [lookup]
    · split
      · next heq =>
        subst heq
        simp only [lookup]
        split <;> rfl
      · next hne =>
        simp only [lookup, ih hcons.2]
        by_cases he : e.1 = k'
        · have : k ≠ k' := fun hk => hne (hk.trans he.symm)
          simp [he, this]
        · simp [he]

theorem get?_insert (d : Dict β) (k : String) (v : β) (k' : String) :
    (d.insert k v).get? k' = if k = k' then some v else d.get? k' :=
  lookup_insertEntry k v d.entries d.sorted k'

@[simp] theorem get?_insert_self (d : Dict β) (k : String) (v : β) :
    (d.insert k v).get? k = some v := by simp [get?_insert]

theorem get?_insert_of_ne (d : Dict β) {k k' : String} (v : β) (h : k ≠ k') :
    (d.insert k v).get? k' = d.get? k' := by simp [get?_insert, h]

theorem lookup_filter_ne (k : String) (l : List (String × β)) (k' : String) :
    lookup k' (l.filter (fun e => e.1 != k)) = if k = k' then none else lookup k' l := by
  induction l with
  | nil => simp [lookup]
  | cons e r ih =>
    simp only [List.filter_cons]
    by_cases he : e.1 = k
    · simp only [he, bne_self_eq_false, Bool.false_eq_true, if_false, ih, lookup]
      split <;> rfl
    · have : (e.1 != k) = true := by simpa using he
      simp only [this, if_true, lookup, ih]
      by_cases hk : k = k'
      · subst hk; simp [he]
      · simp [hk]

theorem get?_erase (d : Dict β) (k k' : String) :
    (d.erase k).get? k' = if k = k' then none else d.get? k' :=
  lookup_filter_ne k d.entries k'

theorem lookup_eq_some_iff {l : List (String × β)} (hs : l.Pairwise (fun a b => a.1 < b.1))
    {k : String} {v : β} : lookup k l = some v ↔ (k, v) ∈ l := by
  induction l with
  | nil => simp [lookup]
  | cons e r ih =>
    have hcons := List.pairwise_cons.mp hs
    simp only [lookup, List.mem_cons]
    by_cases he : e.1 = k
    · rw [if_pos he]
      constructor
      · intro h
        left
        cases h
        exact Prod.ext he.symm rfl
      · rintro (h | h)
        · rw [← h]
        · exact absurd (he ▸ hcons.1 _ h) (String.lt_irrefl _)
    · rw [if_neg he, ih hcons.2]
      constructor
      · exact Or.inr
      · rintro (h | h)
        · exact absurd (by rw [← h]) he
        · exact h

theorem get?_eq_some_iff {d : Dict β} {k : String} {v : β} :
    d.get? k = some v ↔ (k, v) ∈ d.entries := lookup_eq_some_iff d.sorted

theorem entries_eq_of_mem_iff {l m : List (String × β)}
    (hl : l.Pairwise (fun a b => a.1 < b.1)) (hm : m.Pairwise (fun a b => a.1 < b.1))
    (h : ∀ x, x ∈ l ↔ x ∈ m) : l = m := by
  induction l generalizing m with
  | nil =>
    cases m with
    | nil => rfl
    | cons x r => exact absurd ((h x).mpr List.mem_cons_self) (by simp)
  | cons x r ih =>
    cases m with
    | nil => exact absurd ((h x).mp List.mem_cons_self) (by simp)
    | cons y s =>
      have hr := List.pairwise_cons.mp hl
      have hy := List.pairwise_cons.mp hm
      have hxy : x = y := by
        rcases List.mem_cons.mp ((h x).mp List.mem_cons_self) with hx | hx
        · exact hx
        · rcases List.mem_cons.mp ((h y).mpr List.mem_cons_self) with hy' | hy'
          · exact hy'.symm
          · exact absurd (hy.1 x hx) (String.lt_asymm (hr.1 y hy'))
      subst hxy
      congr 1
      refine ih hr.2 hy.2 (fun z => ⟨fun hz => ?_, fun hz => ?_⟩)
      · rcases List.mem_cons.mp ((h z).mp (List.mem_cons_of_mem _ hz)) with rfl | hz'
        · exact absurd (hr.1 _ hz) (String.lt_irrefl _)
        · exact hz'
      · rcases List.mem_cons.mp ((h z).mpr (List.mem_cons_of_mem _ hz)) with rfl | hz'
        · exact absurd (hy.1 _ hz) (String.lt_irrefl _)
        · exact hz'

theorem ext_get? {d e : Dict β} (h : ∀ k, d.get? k = e.get? k) : d = e := by
  refine ext (entries_eq_of_mem_iff d.sorted e.sorted (fun x => ?_))
  have := h x.1
  rw [show x = (x.1, x.2) from rfl, ← get?_eq_some_iff, ← get?_eq_some_iff, this]

end Dict

end AgentMesh
