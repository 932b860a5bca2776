import AgentMesh.Proofs.Json.Lexemes
import AgentMesh.Proofs.Tables

/-!
Printed values are read back (`Json.parse_render`), as far as doubles are. An object whose fields are
printed in another order is read as the object with these fields in ascending order
(`Json.parse_render_obj`).
-/

namespace AgentMesh

/-- The printed number stands for the double again. -/
def Binary64.ReadsBack (x : Binary64) : Prop :=
  Json.readNumber false (Json.symbols x.text) = .ok (.double x, [])

instance (x : Binary64) : Decidable x.ReadsBack :=
  decidable_of_iff ((Json.readNumber false (Json.symbols x.text)).toOption = some (.double x, [])) <| by
    unfold Binary64.ReadsBack
    cases Json.readNumber false (Json.symbols x.text) with
    | error e => exact ⟨nofun, nofun⟩
    | ok p => exact ⟨fun h => congrArg _ (Option.some.inj h), fun h => congrArg _ (Except.ok.inj h)⟩

namespace Json

/-- The values that text can carry, with arrays and objects nested no deeper than the number. -/
inductive Legible : Nat → Json → Prop
  | null {depth : Nat} : Legible depth .null
  | bool {depth : Nat} (b : Bool) : Legible depth (.bool b)
  | int {depth : Nat} {i : Int} (hlow : -9223372036854775808 ≤ i)
      (hhigh : i < 18446744073709551616) : Legible depth (.int i)
  | double {depth : Nat} {x : Binary64} (h : x.ReadsBack) : Legible depth (.double x)
  | str {depth : Nat} (s : String) : Legible depth (.str s)
  | arr {depth : Nat} {items : List Json} (h : ∀ v ∈ items, Legible depth v) :
      Legible (depth + 1) (.arr items)
  | obj {depth : Nat} {fields : List (String × Json)}
      (hsorted : fields.Pairwise fun a b => a.1 < b.1) (h : ∀ f ∈ fields, Legible depth f.2) :
      Legible (depth + 1) (.obj fields)

variable {depth : Nat} {v : Json} {rest : List Symbol}

theorem symbols_append (a b : String) : symbols (a ++ b) = symbols a ++ symbols b := by
  rw [symbols, String.toList_append, List.map_append]
  rfl

theorem symbols_quoted (s : String) :
    symbols (quoted s) = some '"' :: ((s.toList.flatMap escaped).map some ++ [some '"']) := by
  rw [symbols, quoted, String.toList_ofList, List.map_cons, List.map_append]
  rfl

theorem skipBlanks_quoted (t : String) (rest : List Symbol) :
    skipBlanks (symbols (quoted t) ++ rest) = symbols (quoted t) ++ rest := by
  rw [symbols_quoted]
  exact skipBlanks_of_not_blank (by decide) _

def OpensNumber (c : Char) : Prop := c = '-' ∨ c.isDigit = true

theorem readNumber_head {s : List Symbol} {p : Json × List Symbol}
    (h : readNumber false s = .ok p) : ∃ c r, s = some c :: r ∧ OpensNumber c := by
  obtain ⟨n, hn, -⟩ := bind_eq_ok.mp h
  unfold readNumeral at hn
  split at hn
  · exact ⟨'-', _, rfl, Or.inl rfl⟩
  · cases s with
    | nil => cases hn
    | cons a s =>
      cases a with
      | none => cases hn
      | some c =>
        refine ⟨c, s, rfl, Or.inr ?_⟩
        by_contra hc
        rw [readUnsigned, spanDigits, if_neg hc] at hn
        cases hn

theorem OpensNumber.ne {c d : Char} (h : OpensNumber c) (hminus : d ≠ '-')
    (hdigit : d.isDigit = false) : c ≠ d := by
  rintro rfl
  rcases h with rfl | hc
  · exact hminus rfl
  · rw [hdigit] at hc
    cases hc

theorem OpensNumber.not_blank {c : Char} (h : OpensNumber c) : isBlank c = false := by
  simp [isBlank, h.ne (d := ' ') (by decide) (by decide), h.ne (d := '\t') (by decide) (by decide),
    h.ne (d := '\n') (by decide) (by decide), h.ne (d := '\x0d') (by decide) (by decide)]

theorem Legible.opens (h : Legible depth v) :
    ∃ c r, symbols v.render = some c :: r ∧ isBlank c = false ∧ c ≠ ']' := by
  have hnumber : ∀ {text : String} {p : Json × List Symbol},
      readNumber false (symbols text) = .ok p →
        ∃ c r, symbols text = some c :: r ∧ isBlank c = false ∧ c ≠ ']' := by
    intro text p h
    obtain ⟨c, r, hs, hc⟩ := readNumber_head h
    exact ⟨c, r, hs, hc.not_blank, hc.ne (by decide) (by decide)⟩
  cases h with
  | null => exact ⟨'n', _, rfl, by decide, by decide⟩
  | bool b =>
    cases b with
    | true => exact ⟨'t', _, rfl, by decide, by decide⟩
    | false => exact ⟨'f', _, rfl, by decide, by decide⟩
  | int hlow hhigh => exact hnumber (readNumber_intText hlow hhigh)
  | double h => exact hnumber h
  | str s => exact ⟨'"', _, symbols_quoted s, by decide, by decide⟩
  | arr h =>
    rw [render, symbols_append, symbols_append]
    exact ⟨'[', _, rfl, by decide, by decide⟩
  | obj hsorted h =>
    rw [render, symbols_append, symbols_append]
    exact ⟨'\x7b', _, rfl, by decide, by decide⟩

theorem readValue_number {s : List Symbol} (depth : Nat) {p : Json × List Symbol}
    (h : readNumber false s = .ok p) : readValue false depth s = .ok p := by
  obtain ⟨c, r, rfl, hc⟩ := readNumber_head h
  have hother : ∀ {d : Char} {r' : List Symbol}, some c :: r = some d :: r' → d ≠ '-' →
      d.isDigit = false → False := by
    intro d r' heq hminus hdigit
    cases heq
    exact hc.ne hminus hdigit rfl
  rw [readValue, skipBlanks_of_not_blank hc.not_blank]
  split
  case h_1 heq | h_2 heq | h_3 heq | h_4 heq | h_5 heq | h_6 heq =>
    exact (hother heq (by decide) (by decide)).elim
  case h_7 => exact h

theorem readText_quoted (k : String) (r : List Symbol) :
    readText false (symbols (quoted k) ++ r) = .ok (k, r) := by
  rw [symbols_quoted, readText, List.cons_append, List.append_assoc,
    skipBlanks_of_not_blank (by decide)]
  refine bind_eq_ok.mpr ⟨(k.toList, r), readQuoted_escaped k.toList r, ?_⟩
  exact congrArg (fun t => Except.ok (t, r)) String.ofList_toList

/-- A reader takes the printed value off its input. -/
def TakesOff (read : Reader Json) (v : Json) : Prop :=
  ∀ rest, Ends rest → read (symbols v.render ++ rest) = .ok (v, rest)

theorem readItems_opened {item : Reader Json} (first : Bool) (count : Nat) {s : List Symbol}
    (hopens : ∃ c r, s = some c :: r ∧ isBlank c = false ∧ c ≠ ']') :
    readItems item first (count + 1) s =
      (item s >>= fun p =>
        match skipBlanks p.2 with
        | some ']' :: r => .ok ([p.1], r)
        | some ',' :: r => do
          let (vs, rest) ← readItems item false count r
          .ok (p.1 :: vs, rest)
        | _ => .error .malformed) := by
  obtain ⟨c, r, rfl, hblank, hbracket⟩ := hopens
  rw [readItems, skipBlanks_of_not_blank hblank]
  split
  · next heq =>
    cases heq
    exact absurd rfl hbracket
  · rfl

theorem readItems_printed {item : Reader Json} {items : List Json}
    (hopens : ∀ v ∈ items, ∃ c r, symbols v.render = some c :: r ∧ isBlank c = false ∧ c ≠ ']')
    (hitem : ∀ v ∈ items, TakesOff item v) {first : Bool} (hfirst : items = [] → first = true)
    {count : Nat} (hcount : items.length < count) (rest : List Symbol) :
    readItems item first count (symbols (renderItems items) ++ some ']' :: rest) =
      .ok (items, rest) := by
  induction items generalizing first count with
  | nil =>
    obtain ⟨count, rfl⟩ := Nat.exists_eq_succ_of_ne_zero (Nat.ne_of_gt hcount)
    rw [hfirst rfl]
    rfl
  | cons v items ih =>
    obtain ⟨count, rfl⟩ := Nat.exists_eq_succ_of_ne_zero (Nat.ne_of_gt (Nat.zero_lt_of_lt hcount))
    obtain ⟨c, r, hs, hc⟩ := hopens v List.mem_cons_self
    have hv := hitem v List.mem_cons_self
    cases items with
    | nil =>
      rw [renderItems, readItems_opened first count ⟨c, _, by rw [hs]; rfl, hc⟩]
      exact bind_eq_ok.mpr ⟨_, hv _ (.bracket rest), rfl⟩
    | cons w items =>
      have htext : symbols (renderItems (v :: w :: items)) ++ some ']' :: rest =
          symbols v.render ++ some ',' :: (symbols (renderItems (w :: items)) ++ some ']' :: rest) := by
        rw [renderItems]
        simp only [symbols_append, List.append_assoc]
        rfl
      rw [htext, readItems_opened first count ⟨c, _, by rw [hs]; rfl, hc⟩]
      refine bind_eq_ok.mpr ⟨_, hv _ (.comma _), bind_eq_ok.mpr ⟨_, ih ?_ ?_ ?_ ?_, rfl⟩⟩
      · exact fun u hu => hopens u (List.mem_cons_of_mem v hu)
      · exact fun u hu => hitem u (List.mem_cons_of_mem v hu)
      · nofun
      · exact Nat.lt_of_succ_lt_succ hcount

theorem readFields_quoted {value : Reader Json} (first : Bool) (count : Nat) (k : String)
    (r : List Symbol) :
    readFields false value first (count + 1) (symbols (quoted k) ++ some ':' :: r) =
      (value r >>= fun p =>
        match skipBlanks p.2 with
        | some '\x7d' :: r => .ok ([(k, p.1)], r)
        | some ',' :: r => do
          let (fs, rest) ← readFields false value false count r
          .ok ((k, p.1) :: fs, rest)
        | _ => .error .malformed) := by
  rw [readFields, skipBlanks_quoted]
  split
  · next heq =>
    rw [symbols_quoted] at heq
    cases heq
  · rw [readText_quoted]
    rfl

theorem symbols_renderFields_singleton (k : String) (v : Json) (rest : List Symbol) :
    symbols (renderFields [(k, v)]) ++ rest =
      symbols (quoted k) ++ some ':' :: (symbols v.render ++ rest) := by
  rw [renderFields]
  simp only [symbols_append, List.append_assoc]
  rfl

theorem symbols_renderFields_cons (k : String) (v : Json) (f : String × Json)
    (fields : List (String × Json)) (rest : List Symbol) :
    symbols (renderFields ((k, v) :: f :: fields)) ++ rest = symbols (quoted k) ++ some ':' ::
      (symbols v.render ++ some ',' :: (symbols (renderFields (f :: fields)) ++ rest)) := by
  rw [renderFields]
  simp only [symbols_append, List.append_assoc]
  rfl

theorem readFields_printed {value : Reader Json} {fields : List (String × Json)}
    (hvalue : ∀ f ∈ fields, TakesOff value f.2) {first : Bool} (hfirst : fields = [] → first = true)
    {count : Nat} (hcount : fields.length < count) (rest : List Symbol) :
    readFields false value first count (symbols (renderFields fields) ++ some '\x7d' :: rest) =
      .ok (fields, rest) := by
  induction fields generalizing first count with
  | nil =>
    obtain ⟨count, rfl⟩ := Nat.exists_eq_succ_of_ne_zero (Nat.ne_of_gt hcount)
    rw [hfirst rfl]
    rfl
  | cons f fields ih =>
    obtain ⟨count, rfl⟩ := Nat.exists_eq_succ_of_ne_zero (Nat.ne_of_gt (Nat.zero_lt_of_lt hcount))
    obtain ⟨k, v⟩ := f
    have hv := hvalue (k, v) List.mem_cons_self
    cases fields with
    | nil =>
      rw [symbols_renderFields_singleton, readFields_quoted]
      exact bind_eq_ok.mpr ⟨_, hv _ (.brace rest), rfl⟩
    | cons g fields =>
      rw [symbols_renderFields_cons, readFields_quoted]
      refine bind_eq_ok.mpr ⟨_, hv _ (.comma _), bind_eq_ok.mpr ⟨_, ih ?_ ?_ ?_, rfl⟩⟩
      · exact fun h hh => hvalue h (List.mem_cons_of_mem _ hh)
      · nofun
      · exact Nat.lt_of_succ_lt_succ hcount

theorem length_le_renderItems (items : List Json) :
    items.length ≤ (symbols (renderItems items)).length + 1 := by
  induction items with
  | nil => exact Nat.zero_le _
  | cons v items ih =>
    cases items with
    | nil => exact Nat.le_add_left 1 _
    | cons w items =>
      rw [renderItems]
      simp only [symbols_append, List.length_append, List.length_cons] at ih ⊢
      have hcomma : (symbols ",").length = 1 := rfl
      omega

theorem length_le_renderFields (fields : List (String × Json)) :
    fields.length ≤ (symbols (renderFields fields)).length + 1 := by
  induction fields with
  | nil => exact Nat.zero_le _
  | cons f fields ih =>
    obtain ⟨k, v⟩ := f
    cases fields with
    | nil => exact Nat.le_add_left 1 _
    | cons g fields =>
      rw [renderFields]
      simp only [symbols_append, List.length_append, List.length_cons] at ih ⊢
      have hcomma : (symbols ",").length = 1 := rfl
      omega

theorem symbols_render_obj (fields : List (String × Json)) (rest : List Symbol) :
    symbols (Json.obj fields).render ++ rest =
      some '\x7b' :: (symbols (renderFields fields) ++ some '\x7d' :: rest) := by
  rw [render]
  simp only [symbols_append, List.append_assoc]
  rfl

theorem readValue_obj {fields : List (String × Json)}
    (h : ∀ f ∈ fields, TakesOff (readValue false depth) f.2) (rest : List Symbol) :
    readValue false (depth + 1) (symbols (Json.obj fields).render ++ rest) =
      .ok (object fields, rest) := by
  have hcount := length_le_renderFields fields
  rw [symbols_render_obj]
  refine bind_eq_ok.mpr ⟨_, readFields_printed h (fun _ => rfl) ?_ rest, rfl⟩
  rw [List.length_append, List.length_cons]
  omega

theorem Legible.takesOff (h : Legible depth v) : TakesOff (readValue false depth) v := by
  induction h with
  | null =>
    intro rest _
    rw [readValue]
    rfl
  | bool b =>
    intro rest _
    rw [readValue]
    cases b <;> rfl
  | int hlow hhigh =>
    exact fun rest hrest =>
      readValue_number _ (readNumber_append (readNumber_intText hlow hhigh) hrest)
  | double h => exact fun rest hrest => readValue_number _ (readNumber_append h hrest)
  | str s =>
    intro rest _
    rw [readValue, render, symbols_quoted, List.cons_append, List.append_assoc,
      skipBlanks_of_not_blank (by decide)]
    refine bind_eq_ok.mpr ⟨(s.toList, rest), readQuoted_escaped s.toList rest, ?_⟩
    exact congrArg (fun t => Except.ok (Json.str t, rest)) String.ofList_toList
  | @arr depth items h ih =>
    intro rest _
    have htext : symbols (Json.arr items).render ++ rest =
        some '[' :: (symbols (renderItems items) ++ some ']' :: rest) := by
      rw [render]
      simp only [symbols_append, List.append_assoc]
      rfl
    have hcount := length_le_renderItems items
    rw [htext]
    refine bind_eq_ok.mpr
      ⟨_, readItems_printed (fun v hv => (h v hv).opens) ih (fun _ => rfl) ?_ rest, rfl⟩
    rw [List.length_append, List.length_cons]
    omega
  | @obj depth fields hsorted h ih =>
    intro rest _
    have hsame : object fields = .obj fields :=
      congrArg (fun d : Fields => Json.obj d.entries) (Dict.ofList_entries ⟨fields, hsorted⟩)
    exact hsame ▸ readValue_obj ih rest

/-- Nothing is lost when a value is printed and read again. -/
theorem parse_render (h : Legible nestingLimit v) : parse v.render = .ok v := by
  have hv := h.takesOff [] .nothing
  rw [List.append_nil] at hv
  exact bind_eq_ok.mpr ⟨_, hv, rfl⟩

theorem parse_render_obj {fields : List (String × Json)} (hdepth : depth + 1 = nestingLimit)
    (h : ∀ f ∈ fields, Legible depth f.2) :
    parse (Json.obj fields).render = .ok (object fields) := by
  have hv := readValue_obj (fun f hf => (h f hf).takesOff) []
  rw [List.append_nil, hdepth] at hv
  exact bind_eq_ok.mpr ⟨_, hv, rfl⟩

end Json

end AgentMesh
