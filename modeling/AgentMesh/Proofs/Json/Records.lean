import AgentMesh.Json.Shape
import AgentMesh.Proofs.Json.Contents

/-!
Records in text. A value that fits a shape is read by it from its printed text (`Json.Fits.takesOff`), so
a record whose fields are printed in any order is read back field by field (`Json.parseRecord_printed`).
Every field that was read was given by its shape, or is what stands for a field that is not there
(`Json.gives_of_parseRecord`).
-/

namespace AgentMesh.Json

/-- The values that a shape gives, for the shapes of records. -/
inductive Fits (depth : Nat) : Shape → Json → Prop
  | text (s : String) : Fits depth .text (.str s)
  | textSuch {test : String → Bool} {s : String} (h : test s = true) :
      Fits depth (.textSuch test) (.str s)
  | flag (b : Bool) : Fits depth .flag (.bool b)
  | object {fields : Fields} (h : Legible depth (ofFields fields)) :
      Fits depth .object (ofFields fields)
  | textMap (h : 0 < depth) (texts : Dict String) : Fits depth .textMap (ofTexts texts)
  | choice {names : List String} {s : String} (h : s ∈ names) : Fits depth (.choice names) (.str s)
  | null (shape : Shape) : Fits depth (.optional shape) .null
  | present {shape : Shape} {v : Json} (h : Fits depth shape v) : Fits depth (.optional shape) v

variable {depth : Nat} {v : Json} {shape : Shape} {s rest : List Symbol}

theorem quoted_opens (t : String) (rest : List Symbol) :
    ∃ r, skipBlanks (symbols (quoted t) ++ rest) = some '"' :: r := by
  rw [skipBlanks_quoted, symbols_quoted]
  exact ⟨_, rfl⟩

theorem Fits.eq_null_or_opens (h : Fits depth shape v) : v = .null ∨
    ∃ c r, symbols v.render = some c :: r ∧ isBlank c = false ∧ c ≠ 'n' := by
  induction h with
  | text s | textSuch | choice => exact Or.inr ⟨'"', _, symbols_quoted _, by decide, by decide⟩
  | flag b =>
    cases b with
    | true => exact Or.inr ⟨'t', _, rfl, by decide, by decide⟩
    | false => exact Or.inr ⟨'f', _, rfl, by decide, by decide⟩
  | object =>
    rw [ofFields, render, symbols_append, symbols_append]
    exact Or.inr ⟨'\x7b', _, rfl, by decide, by decide⟩
  | textMap =>
    rw [ofTexts, render, symbols_append, symbols_append]
    exact Or.inr ⟨'\x7b', _, rfl, by decide, by decide⟩
  | null => exact Or.inl rfl
  | present h ih => exact ih

theorem readTextValue_quoted (t : String) : TakesOff readTextValue (.str t) := by
  intro rest _
  obtain ⟨r, hr⟩ := quoted_opens t rest
  rw [readTextValue, render, hr]
  exact congrArg (Except.map _) (readText_quoted t rest)

theorem Fits.takesOff (h : Fits depth shape v) : TakesOff (shape.read depth) v := by
  induction h with
  | text s =>
    intro rest hrest
    rw [Shape.read]
    exact readTextValue_quoted s rest hrest
  | @textSuch test s h =>
    intro rest _
    obtain ⟨r, hr⟩ := quoted_opens s rest
    rw [Shape.read, render, hr]
    refine bind_eq_ok.mpr ⟨_, readText_quoted s rest, ?_⟩
    exact if_pos h
  | flag b =>
    intro rest _
    cases b <;> rfl
  | object h =>
    intro rest hrest
    have hread := h.takesOff rest hrest
    rw [ofFields, symbols_render_obj] at hread ⊢
    rw [Shape.read]
    exact hread
  | textMap h texts =>
    intro rest _
    obtain ⟨below, rfl⟩ := Nat.exists_eq_succ_of_ne_zero (Nat.ne_of_gt h)
    rw [Shape.read, ofTexts, symbols_render_obj]
    have hcount := length_le_renderFields (texts.mapValues Json.str).entries
    refine bind_eq_ok.mpr ⟨_, readFields_printed ?_ (fun _ => rfl) ?_ rest, ?_⟩
    · intro f hf
      obtain ⟨e, -, rfl⟩ := List.mem_map.mp hf
      exact readTextValue_quoted e.2
    · rw [List.length_append, List.length_cons]
      omega
    · dsimp only
      rw [Dict.ofList_entries]
      rfl
  | @choice names s h =>
    intro rest _
    obtain ⟨r, hr⟩ := quoted_opens s rest
    rw [Shape.read, render, hr]
    refine bind_eq_ok.mpr ⟨_, readText_quoted s rest, ?_⟩
    exact if_pos (List.contains_iff_mem.mpr h)
  | null shape =>
    intro rest _
    rfl
  | @present shape v h ih =>
    intro rest hrest
    rcases h.eq_null_or_opens with rfl | ⟨c, r, hc, hblank, hn⟩
    · rfl
    · have hv := ih rest hrest
      rw [hc, List.cons_append] at hv ⊢
      rw [Shape.read, skipBlanks_of_not_blank hblank]
      split
      · next heq =>
        cases heq
        exact absurd rfl hn
      · exact hv

variable {fields : List Field} {seen : Fields}

theorem readRecordFields_quoted {f : Field} {k : String} (first : Bool) (count : Nat)
    (hf : fields.find? (·.name = k) = some f) (hseen : seen.contains k = false) (r : List Symbol) :
    readRecordFields depth fields first seen (count + 1) (symbols (quoted k) ++ some ':' :: r) =
      (f.shape.read depth r >>= fun p =>
        match skipBlanks p.2 with
        | some '\x7d' :: r => .ok (seen.insert k p.1, r)
        | some ',' :: r => readRecordFields depth fields false (seen.insert k p.1) count r
        | _ => .error .malformed) := by
  rw [readRecordFields, skipBlanks_quoted]
  split
  · next heq =>
    rw [symbols_quoted] at heq
    cases heq
  · rw [readText_quoted]
    dsimp only [bind, Except.bind]
    rw [hf]
    dsimp only
    rw [hseen]
    rfl

theorem readRecordFields_printed {l : List (String × Json)}
    (hkeys : (l.map (·.1)).Nodup)
    (hfits : ∀ e ∈ l, ∃ f, fields.find? (·.name = e.1) = some f ∧ Fits depth f.shape e.2)
    (hseen : ∀ e ∈ l, seen.contains e.1 = false) {first : Bool} (hfirst : l = [] → first = true)
    {count : Nat} (hcount : l.length < count) (rest : List Symbol) :
    readRecordFields depth fields first seen count (symbols (renderFields l) ++ some '\x7d' :: rest) =
      .ok (seen.insertAll l, rest) := by
  induction l generalizing seen first count with
  | nil =>
    obtain ⟨count, rfl⟩ := Nat.exists_eq_succ_of_ne_zero (Nat.ne_of_gt hcount)
    rw [hfirst rfl]
    rfl
  | cons e l ih =>
    obtain ⟨count, rfl⟩ := Nat.exists_eq_succ_of_ne_zero (Nat.ne_of_gt (Nat.zero_lt_of_lt hcount))
    obtain ⟨k, v⟩ := e
    obtain ⟨f, hf, hv⟩ := hfits (k, v) List.mem_cons_self
    have hk := hseen (k, v) List.mem_cons_self
    cases l with
    | nil =>
      rw [symbols_renderFields_singleton, readRecordFields_quoted first count hf hk]
      exact bind_eq_ok.mpr ⟨_, hv.takesOff _ (.brace rest), rfl⟩
    | cons g l =>
      rw [symbols_renderFields_cons, readRecordFields_quoted first count hf hk]
      refine bind_eq_ok.mpr ⟨_, hv.takesOff _ (.comma _), ih ?_ ?_ ?_ ?_ ?_⟩
      · exact (List.nodup_cons.mp hkeys).2
      · exact fun e he => hfits e (List.mem_cons_of_mem _ he)
      · -- the names that follow are not seen yet, for none stands twice
        intro e he
        have hne : k ≠ e.1 := fun heq =>
          (List.nodup_cons.mp hkeys).1 (List.mem_map.mpr ⟨e, he, heq.symm⟩)
        rw [Dict.contains, Dict.get?_insert_of_ne _ _ hne]
        exact hseen e (List.mem_cons_of_mem _ he)
      · nofun
      · exact Nat.lt_of_succ_lt_succ hcount

def Field.valueIn (seen : Fields) (f : Field) : Except Fault Json :=
  match seen.get? f.name, f.absent with
  | some v, _ => .ok v
  | none, .required => .error .mismatch
  | none, .null => .ok .null
  | none, .default v => .ok v

def putField (seen out : Fields) (f : Field) : Except Fault Fields :=
  (f.valueIn seen).map (out.insert f.name)

theorem fillAbsent_eq (fields : List Field) (seen : Fields) :
    fillAbsent fields seen = fields.foldlM (putField seen) Dict.empty := by
  unfold fillAbsent
  congr
  funext out f
  unfold putField Field.valueIn
  cases seen.get? f.name <;> cases f.absent <;> rfl

theorem Field.valueIn_of_seen {f : Field} (h : seen.get? f.name = some v) :
    f.valueIn seen = .ok v := by
  rw [valueIn, h]

theorem foldlM_putField_of_seen (hseen : ∀ f ∈ fields, (seen.get? f.name).isSome) (acc : Fields) :
    ∃ out, fields.foldlM (putField seen) acc = .ok out ∧
      (∀ f ∈ fields, out.get? f.name = seen.get? f.name) ∧
      ∀ k, (∀ f ∈ fields, f.name ≠ k) → out.get? k = acc.get? k := by
  induction fields generalizing acc with
  | nil => exact ⟨acc, rfl, nofun, fun _ _ => rfl⟩
  | cons f fields ih =>
    obtain ⟨v, hv⟩ := Option.isSome_iff_exists.mp (hseen f List.mem_cons_self)
    obtain ⟨out, hout, hsame, hother⟩ :=
      ih (fun g hg => hseen g (List.mem_cons_of_mem f hg)) (acc.insert f.name v)
    refine ⟨out, ?_, ?_, ?_⟩
    · rw [List.foldlM_cons, putField, Field.valueIn_of_seen hv]
      exact hout
    · rintro g (_ | ⟨_, hg⟩)
      · by_cases hf : ∃ g ∈ fields, g.name = f.name
        · obtain ⟨g, hg, hname⟩ := hf
          exact hname ▸ hsame g hg
        · rw [hother f.name fun g hg hname => hf ⟨g, hg, hname⟩, Dict.get?_insert_self, hv]
      · exact hsame g hg
    · intro k hk
      rw [hother k fun g hg => hk g (List.mem_cons_of_mem f hg),
        Dict.get?_insert_of_ne _ _ (hk f List.mem_cons_self)]

theorem fillAbsent_of_seen (hseen : ∀ f ∈ fields, (seen.get? f.name).isSome) :
    ∃ out, fillAbsent fields seen = .ok out ∧ ∀ f ∈ fields, out.get? f.name = seen.get? f.name := by
  obtain ⟨out, hout, hsame, -⟩ := foldlM_putField_of_seen hseen Dict.empty
  exact ⟨out, fillAbsent_eq fields seen ▸ hout, hsame⟩

theorem get?_foldlM_putField {acc out : Fields} (h : fields.foldlM (putField seen) acc = .ok out)
    {k : String} (hk : out.get? k = some v) :
    acc.get? k = some v ∨ ∃ f ∈ fields, f.name = k ∧ f.valueIn seen = .ok v := by
  induction fields generalizing acc with
  | nil =>
    cases h
    exact Or.inl hk
  | cons f fields ih =>
    rw [List.foldlM_cons] at h
    obtain ⟨acc', hacc, h⟩ := bind_eq_ok.mp h
    obtain ⟨w, hw, rfl⟩ := map_eq_ok.mp hacc
    rcases ih h with hold | ⟨g, hg, hname, hv⟩
    · by_cases hname : f.name = k
      · subst hname
        rw [Dict.get?_insert_self] at hold
        cases hold
        exact Or.inr ⟨f, List.mem_cons_self, rfl, hw⟩
      · rw [Dict.get?_insert_of_ne _ _ hname] at hold
        exact Or.inl hold
    · exact Or.inr ⟨g, List.mem_cons_of_mem f hg, hname, hv⟩

theorem parseRecord_printed {l : List (String × Json)} (hkeys : (l.map (·.1)).Nodup)
    (hfits : ∀ e ∈ l, ∃ f, fields.find? (·.name = e.1) = some f ∧ Fits (nestingLimit - 1) f.shape e.2)
    (hall : ∀ f ∈ fields, f.name ∈ l.map (·.1)) :
    ∃ out, parseRecord fields (symbols (Json.obj l).render) = .ok out ∧
      ∀ e ∈ l, out.get? e.1 = some e.2 := by
  have hget : ∀ e ∈ l, (Dict.empty.insertAll l).get? e.1 = some e.2 := fun e he =>
    Dict.get?_ofList_of_nodup hkeys he
  have hseen : ∀ f ∈ fields, ((Dict.empty.insertAll l).get? f.name).isSome := by
    intro f hf
    obtain ⟨e, he, hname⟩ := List.mem_map.mp (hall f hf)
    rw [← hname, hget e he]
    rfl
  obtain ⟨out, hout, hsame⟩ := fillAbsent_of_seen hseen
  have hcount := length_le_renderFields l
  have htext := symbols_render_obj l []
  rw [List.append_nil] at htext
  refine ⟨out, ?_, fun e he => ?_⟩
  · rw [htext]
    refine bind_eq_ok.mpr ⟨(out, []), bind_eq_ok.mpr ⟨(Dict.empty.insertAll l, []), ?_, ?_⟩, rfl⟩
    · refine readRecordFields_printed hkeys hfits (fun _ _ => rfl) (fun _ => rfl) ?_ []
      rw [List.length_append, List.length_singleton]
      omega
    · exact bind_eq_ok.mpr ⟨out, hout, rfl⟩
  · obtain ⟨f, hf, -⟩ := hfits e he
    have hname : f.name = e.1 := by simpa using List.find?_some hf
    rw [← hname, hsame f (List.mem_of_find?_eq_some hf), hname, hget e he]

def ReadBy (depth : Nat) (fields : List Field) (seen : Fields) : Prop :=
  ∀ k v, seen.get? k = some v →
    ∃ f ∈ fields, f.name = k ∧ ∃ s rest, f.shape.read depth s = .ok (v, rest)

theorem ReadBy.insert {f : Field} (hseen : ReadBy depth fields seen) (hf : f ∈ fields)
    (hv : f.shape.read depth s = .ok (v, rest)) : ReadBy depth fields (seen.insert f.name v) := by
  intro k w hk
  by_cases hname : f.name = k
  · subst hname
    rw [Dict.get?_insert_self] at hk
    cases hk
    exact ⟨f, hf, rfl, s, rest, hv⟩
  · rw [Dict.get?_insert_of_ne _ _ hname] at hk
    exact hseen k w hk

theorem ReadBy.of_readRecordFields {first : Bool} {count : Nat} {out : Fields}
    (hseen : ReadBy depth fields seen)
    (h : readRecordFields depth fields first seen count s = .ok (out, rest)) :
    ReadBy depth fields out := by
  induction count generalizing first seen s with
  | zero => cases h
  | succ count ih =>
    rw [readRecordFields] at h
    dsimp only at h
    split at h
    · split at h <;> cases h
      exact hseen
    · obtain ⟨⟨k, r⟩, -, h⟩ := bind_eq_ok.mp h
      dsimp only at h
      split at h
      · next f hf =>
        obtain rfl : f.name = k := by simpa using List.find?_some hf
        split at h
        · cases h
        · obtain ⟨r', -, h⟩ := bind_eq_ok.mp h
          obtain ⟨⟨v, r''⟩, hv, h⟩ := bind_eq_ok.mp h
          have hnext := hseen.insert (List.mem_of_find?_eq_some hf) hv
          dsimp only at h
          split at h
          · cases h
            exact hnext
          · exact ih hnext h
          · cases h
      · obtain ⟨r', -, h⟩ := bind_eq_ok.mp h
        obtain ⟨⟨v, r''⟩, -, h⟩ := bind_eq_ok.mp h
        dsimp only at h
        split at h
        · cases h
          exact hseen
        · exact ih hseen h
        · cases h

theorem ReadBy.of_readRecordItems {first : Bool} {left : List Field} {out : Fields}
    (hseen : ReadBy depth fields seen) (hleft : ∀ f ∈ left, f ∈ fields)
    (h : readRecordItems depth first seen left s = .ok (out, rest)) :
    ReadBy depth fields out := by
  induction left generalizing first seen s with
  | nil =>
    rw [readRecordItems] at h
    split at h <;> cases h
    exact hseen
  | cons f left ih =>
    have hitem : ∀ {s : List Symbol}, (f.shape.read depth s >>= fun p =>
        readRecordItems depth false (seen.insert f.name p.1) left p.2) = .ok (out, rest) →
        ReadBy depth fields out := by
      intro s h
      obtain ⟨⟨v, r⟩, hv, h⟩ := bind_eq_ok.mp h
      exact ih (hseen.insert (hleft f List.mem_cons_self) hv)
        (fun g hg => hleft g (List.mem_cons_of_mem f hg)) h
    rw [readRecordItems] at h
    dsimp only at h
    split at h
    · split at h <;> cases h
      exact hseen
    · split at h
      · cases h
      · split at h
        · cases h
        · exact hitem h
    · split at h
      · exact hitem h
      · cases h

theorem refuse_ne_ok {α : Type} {p : α × List Symbol} : refuse s ≠ .ok p := by
  intro h
  unfold refuse at h
  split at h
  · cases h
  · cases h
  · obtain ⟨q, -, h⟩ := bind_eq_ok.mp h
    cases h

/-- The values that a field of a record can have: what its shape gives, and what stands for it if it is
not there. -/
inductive Field.Gives (depth : Nat) (f : Field) : Json → Prop
  | read {v : Json} {s rest : List Symbol} (h : f.shape.read depth s = .ok (v, rest)) : Gives depth f v
  | null (h : f.absent = .null) : Gives depth f .null
  | default {v : Json} (h : f.absent = .default v) : Gives depth f v

theorem ReadBy.gives (hseen : ReadBy depth fields seen) {out : Fields}
    (h : fillAbsent fields seen = .ok out) {k : String} (hk : out.get? k = some v) :
    ∃ f ∈ fields, f.name = k ∧ f.Gives depth v := by
  rw [fillAbsent_eq] at h
  rcases get?_foldlM_putField h hk with hnone | ⟨f, hf, rfl, hv⟩
  · cases hnone
  · unfold Field.valueIn at hv
    split at hv
    · next w hw =>
      cases hv
      obtain ⟨g, hg, hname, s, rest, hread⟩ := hseen f.name _ hw
      exact ⟨g, hg, hname, .read hread⟩
    · cases hv
    · next habsent =>
      cases hv
      exact ⟨f, hf, rfl, .null habsent⟩
    · next habsent =>
      cases hv
      exact ⟨f, hf, rfl, .default habsent⟩

theorem gives_of_parseRecord {out : Fields} (h : parseRecord fields s = .ok out) {k : String}
    (hk : out.get? k = some v) : ∃ f ∈ fields, f.name = k ∧ f.Gives (nestingLimit - 1) v := by
  obtain ⟨⟨out', rest⟩, hrecord, h⟩ := bind_eq_ok.mp h
  obtain ⟨_, -, h⟩ := bind_eq_ok.mp h
  cases h
  have hempty : ReadBy (nestingLimit - 1) fields Dict.empty := nofun
  unfold readRecord at hrecord
  dsimp only at hrecord
  split at hrecord
  · obtain ⟨⟨seen, r⟩, hseen, hrecord⟩ := bind_eq_ok.mp hrecord
    obtain ⟨out', hout, hrecord⟩ := bind_eq_ok.mp hrecord
    cases hrecord
    exact (hempty.of_readRecordFields hseen).gives hout hk
  · obtain ⟨⟨seen, r⟩, hseen, hrecord⟩ := bind_eq_ok.mp hrecord
    obtain ⟨out', hout, hrecord⟩ := bind_eq_ok.mp hrecord
    cases hrecord
    exact (hempty.of_readRecordItems (fun _ hf => hf) hseen).gives hout hk
  · exact absurd hrecord refuse_ne_ok

theorem object_of_read (h : Shape.object.read depth s = .ok (v, rest)) :
    ∃ fields : Fields, v = ofFields fields ∧
      ((∀ x, Holds x v → x.ReadsBack) → Legible depth v) := by
  rw [Shape.read] at h
  split at h
  · next hopen =>
    have hlegible := legible_of_readValue h
    rw [readValue, hopen] at h
    cases depth with
    | zero => cases h
    | succ depth =>
      obtain ⟨⟨fs, r⟩, -, h⟩ := bind_eq_ok.mp h
      cases h
      exact ⟨Dict.ofList fs, rfl, hlegible⟩
  · exact absurd h refuse_ne_ok

end AgentMesh.Json
