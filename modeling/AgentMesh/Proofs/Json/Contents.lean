import AgentMesh.Proofs.Json.Printing

/-!
What a reader gives. A value that was read is legible as far as its doubles are
(`Json.legible_of_readValue`): its integers have 64 bits, its objects are in ascending order, and it is
nested no deeper than the reader allows.
-/

namespace AgentMesh.Json

inductive Holds (x : Binary64) : Json → Prop
  | double : Holds x (.double x)
  | item {v : Json} {items : List Json} (hv : v ∈ items) (h : Holds x v) : Holds x (.arr items)
  | field {f : String × Json} {fields : List (String × Json)} (hf : f ∈ fields) (h : Holds x f.2) :
      Holds x (.obj fields)

variable {depth : Nat} {v : Json} {s rest : List Symbol}

theorem Legible.readsBack (h : Legible depth v) {x : Binary64} (hx : Holds x v) : x.ReadsBack := by
  induction h with
  | null | bool | int | str => cases hx
  | double h =>
    cases hx
    exact h
  | arr h ih =>
    cases hx with
    | item hv hx => exact ih _ hv hx
  | obj hsorted h ih =>
    cases hx with
    | field hf hx => exact ih _ hf hx

theorem Numeral.legible_of_value? {n : Numeral} (h : n.value? = some v)
    (hdoubles : ∀ x, Holds x v → x.ReadsBack) : Legible depth v := by
  unfold value? at h
  split at h
  · next hwhole =>
    cases h
    simp only [Bool.and_eq_true, decide_eq_true_eq] at hwhole
    exact .int (by omega) (by omega)
  split at h
  · next hwhole =>
    cases h
    simp only [Bool.and_eq_true, decide_eq_true_eq] at hwhole
    exact .int (by omega) (by omega)
  dsimp only at h
  split at h
  · cases h
    exact .double (hdoubles _ .double)
  · cases h

theorem legible_of_readNumber (h : readNumber false s = .ok (v, rest))
    (hdoubles : ∀ x, Holds x v → x.ReadsBack) : Legible depth v := by
  obtain ⟨⟨n, r⟩, -, h⟩ := bind_eq_ok.mp h
  dsimp only at h
  split at h
  · next hn =>
    cases h
    exact n.legible_of_value? hn hdoubles
  · cases h

theorem readItems_mem {item : Reader Json} {first : Bool} {count : Nat} {items : List Json}
    (h : readItems item first count s = .ok (items, rest)) :
    ∀ v ∈ items, ∃ s' rest', item s' = .ok (v, rest') := by
  induction count generalizing first s items rest with
  | zero => cases h
  | succ count ih =>
    rw [readItems] at h
    split at h
    · split at h <;> cases h
      exact fun _ hv => absurd hv List.not_mem_nil
    · obtain ⟨⟨v, r⟩, hv, h⟩ := bind_eq_ok.mp h
      dsimp only at h
      split at h
      · cases h
        rintro _ (_ | ⟨_, ⟨⟩⟩)
        exact ⟨_, r, hv⟩
      · obtain ⟨⟨vs, r'⟩, hvs, h⟩ := bind_eq_ok.mp h
        cases h
        rintro w (_ | ⟨_, hw⟩)
        · exact ⟨_, r, hv⟩
        · exact ih hvs w hw
      · cases h

theorem readFields_mem {value : Reader Json} {first : Bool} {count : Nat}
    {fields : List (String × Json)} (h : readFields false value first count s = .ok (fields, rest)) :
    ∀ f ∈ fields, ∃ s' rest', value s' = .ok (f.2, rest') := by
  induction count generalizing first s fields rest with
  | zero => cases h
  | succ count ih =>
    rw [readFields] at h
    split at h
    · split at h <;> cases h
      exact fun _ hv => absurd hv List.not_mem_nil
    · obtain ⟨⟨k, r⟩, -, h⟩ := bind_eq_ok.mp h
      obtain ⟨r', -, h⟩ := bind_eq_ok.mp h
      obtain ⟨⟨v, r''⟩, hv, h⟩ := bind_eq_ok.mp h
      dsimp only at h
      split at h
      · cases h
        rintro _ (_ | ⟨_, ⟨⟩⟩)
        exact ⟨_, r'', hv⟩
      · obtain ⟨⟨fs, r'⟩, hfs, h⟩ := bind_eq_ok.mp h
        cases h
        rintro f (_ | ⟨_, hf⟩)
        · exact ⟨_, r'', hv⟩
        · exact ih hfs f hf
      · cases h

theorem legible_of_below
    (hbelow : ∀ {below : Nat} {s rest : List Symbol} {v : Json}, depth = below + 1 →
      readValue false below s = .ok (v, rest) → (∀ x, Holds x v → x.ReadsBack) → Legible below v)
    (h : readValue false depth s = .ok (v, rest)) (hdoubles : ∀ x, Holds x v → x.ReadsBack) :
    Legible depth v := by
  rw [readValue] at h
  split at h
  · obtain ⟨r, -, h⟩ := bind_eq_ok.mp h
    cases h
    exact .null
  · obtain ⟨r, -, h⟩ := bind_eq_ok.mp h
    cases h
    exact .bool true
  · obtain ⟨r, -, h⟩ := bind_eq_ok.mp h
    cases h
    exact .bool false
  · obtain ⟨p, -, h⟩ := bind_eq_ok.mp h
    cases h
    exact .str _
  · cases depth with
    | zero => cases h
    | succ below =>
      obtain ⟨⟨items, r⟩, hitems, h⟩ := bind_eq_ok.mp h
      cases h
      refine .arr fun w hw => ?_
      obtain ⟨s', rest', hread⟩ := readItems_mem hitems w hw
      exact hbelow rfl hread fun x hx => hdoubles x (.item hw hx)
  · cases depth with
    | zero => cases h
    | succ below =>
      obtain ⟨⟨fields, r⟩, hfields, h⟩ := bind_eq_ok.mp h
      cases h
      refine .obj (Dict.ofList fields).sorted fun f hf => ?_
      have hmem : (f.1, f.2) ∈ fields := Dict.mem_of_get?_ofList (Dict.get?_eq_some_iff.mpr hf)
      obtain ⟨s', rest', hread⟩ := readFields_mem hfields _ hmem
      exact hbelow rfl hread fun x hx => hdoubles x (.field hf hx)
  · exact legible_of_readNumber h hdoubles

theorem legible_of_readValue (h : readValue false depth s = .ok (v, rest))
    (hdoubles : ∀ x, Holds x v → x.ReadsBack) : Legible depth v := by
  induction depth generalizing s v rest with
  | zero => exact legible_of_below nofun h hdoubles
  | succ depth ih =>
    exact legible_of_below (fun hbelow => Nat.succ.inj hbelow ▸ ih) h hdoubles

end AgentMesh.Json
