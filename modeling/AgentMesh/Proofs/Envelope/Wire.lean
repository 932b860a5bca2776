import AgentMesh.Envelope.Codec
import AgentMesh.Proofs.Json.Printing

/-!
Envelopes on the wire. An envelope has an identifier and, unless the clock shows zero, a time of sending,
so nothing is made up when it is read again: it comes back from its JSON value and from its text as it
was (`Envelope.survives_wire`).
-/

namespace AgentMesh.Envelope

/-- The envelopes that are made while the clock shows `now`: of a message, or of what was read. -/
inductive Made (now : Binary64) : Envelope → Prop
  | sealed (m : Message) {fresh : String} (hfresh : fresh ≠ "") : Made now (m.seal fresh now)
  | read {v : Json} {fresh : String} {e : Envelope} (hfresh : fresh ≠ "")
      (h : ofJson fresh now v = .ok e) : Made now e

variable {now later : Binary64} {e : Envelope}

theorem messageIdOf_ne {fresh : String} (hfresh : fresh ≠ "") (fields : Fields) :
    messageIdOf fresh fields ≠ "" := by
  unfold messageIdOf
  split
  · next s _ =>
    split
    · exact hfresh
    · next hs => exact fun h => hs (h ▸ rfl)
  · exact hfresh

theorem timestampOf_of_isZero {fields : Fields} (h : (timestampOf now fields).isZero = true) :
    timestampOf now fields = now := by
  unfold timestampOf at h ⊢
  split
  · next t ht =>
    rw [ht] at h
    dsimp only at h ⊢
    split
    · rfl
    · next hne =>
      rw [if_neg hne] at h
      exact absurd h hne
  · rfl

theorem ofJson_eq_ok {v : Json} {fresh : String} (h : ofJson fresh now v = .ok e) :
    ∃ fields, e.messageId = messageIdOf fresh fields ∧ e.timestamp = timestampOf now fields := by
  unfold ofJson at h
  split at h
  · next fields _ =>
    obtain ⟨kind, -, h⟩ := Json.bind_eq_ok.mp h
    obtain ⟨sender, -, h⟩ := Json.bind_eq_ok.mp h
    obtain ⟨taskId, -, h⟩ := Json.bind_eq_ok.mp h
    obtain ⟨payload, -, h⟩ := Json.bind_eq_ok.mp h
    cases h
    exact ⟨fields, rfl, rfl⟩
  · cases h

theorem Made.proper (h : e.Made now) :
    e.messageId ≠ "" ∧ (e.timestamp.isZero = true → e.timestamp = now) := by
  cases h with
  | sealed m hfresh => exact ⟨hfresh, fun _ => rfl⟩
  | read hfresh h =>
    obtain ⟨fields, hid, htime⟩ := ofJson_eq_ok h
    exact ⟨hid ▸ messageIdOf_ne hfresh fields, fun hz => by
      rw [htime] at hz ⊢
      exact timestampOf_of_isZero hz⟩

theorem fields?_toJson (e : Envelope) : ∃ fields : Fields, e.toJson.fields? = some fields ∧
    ∀ f ∈ e.writtenFields, fields.get? f.1 = some f.2 := by
  have hkeys : (e.writtenFields.map (·.1)).Nodup := by
    show ["kind", "sender", "task_id", "payload", "message_id", "timestamp"].Nodup
    decide
  exact ⟨Dict.ofList e.writtenFields, congrArg some (Dict.ofList_entries _),
    fun f hf => Dict.get?_ofList_of_nodup hkeys hf⟩

theorem ofJson_toJson (hid : e.messageId ≠ "")
    (htime : e.timestamp.isZero = true → later = e.timestamp) (fresh : String) :
    ofJson fresh later e.toJson = .ok e := by
  obtain ⟨fields, hshown, hfields⟩ := fields?_toJson e
  simp only [writtenFields, List.forall_mem_cons, List.not_mem_nil, false_implies, implies_true,
    and_true] at hfields
  obtain ⟨hkind, hsender, htask, hpayload, hmessage, hstamp⟩ := hfields
  have hkind' : kindOf fields = .ok e.kind := by
    simp only [kindOf, hkind, Kind.ofText, Kind.ofName?_name]
  have hsender' : requiredText fields "sender" = .ok e.sender := by
    simp only [requiredText, hsender, Json.text?]
  have htask' : requiredText fields "task_id" = .ok e.taskId := by
    simp only [requiredText, htask, Json.text?]
  have hpayload' : payloadOf fields = .ok e.payload := by
    simp only [payloadOf, hpayload, Json.ofFields, Dict.ofList_entries]
  have hmessage' : messageIdOf fresh fields = e.messageId := by
    simp only [messageIdOf, hmessage, String.isEmpty_iff, if_neg hid]
  have hstamp' : timestampOf later fields = e.timestamp := by
    simp only [timestampOf, hstamp, Option.bind_some, Json.real?]
    split
    · next hz => exact htime hz
    · rfl
  unfold ofJson
  rw [hshown]
  simp only [hkind', hsender', htask', hpayload', hmessage', hstamp']
  rfl

theorem parse_toText (h : Json.Legible Json.nestingLimit e.toJson) :
    Json.parse e.toText = .ok e.toJson := by
  obtain ⟨fields, hshown, hfields⟩ := fields?_toJson e
  obtain rfl : Dict.ofList (Dict.ofList e.writtenFields).entries = fields := Option.some.inj hshown
  rw [Dict.ofList_entries] at hfields
  cases h with
  | obj hsorted hlegible =>
    exact Json.parse_render_obj rfl fun f hf => hlegible f (Dict.get?_eq_some_iff.mp (hfields f hf))

def ofText? (fresh : String) (now : Binary64) (text : String) : Option Envelope :=
  (Json.parse text).toOption.bind fun v => (ofJson fresh now v).toOption

/-- An envelope that was made comes back from its JSON value, whatever the clock shows by then and
whichever identifier would be made up. Its text is read as that value, so it comes back from its text
too. -/
theorem survives_wire (h : e.Made now) (hclock : now.isZero = true → later = now) (fresh : String) :
    ofJson fresh later e.toJson = .ok e ∧
      (Json.Legible Json.nestingLimit e.toJson →
        Json.parse e.toText = .ok e.toJson ∧ ofText? fresh later e.toText = some e) := by
  obtain ⟨hid, htime⟩ := h.proper
  have hvalue : ofJson fresh later e.toJson = .ok e := by
    refine ofJson_toJson hid (fun hz => ?_) fresh
    have hnow : e.timestamp = now := htime hz
    rw [hnow] at hz ⊢
    exact hclock hz
  refine ⟨hvalue, fun hlegible => ⟨parse_toText hlegible, ?_⟩⟩
  simp only [ofText?, parse_toText hlegible, hvalue, Except.toOption, Option.bind_some]

def bare : Json :=
  Json.object
    [("kind", .str "result"), ("sender", .int 7), ("task_id", .str "t"), ("timestamp", .int 0),
     ("payload", .obj [("context", .arr [.null, .str "\n\"\x1f"]), ("weight", .double ⟨0x3FB999999999999A⟩)])]

def completed : Envelope :=
  { kind := .result, sender := "7", taskId := "t",
    payload := Dict.ofList [("context", .arr [.null, .str "\n\"\x1f"]),
      ("weight", .double ⟨0x3FB999999999999A⟩)],
    messageId := "id", timestamp := ⟨0x4029000000000000⟩ }

theorem legible_completed : Json.Legible Json.nestingLimit completed.toJson := by
  have hweight : Binary64.ReadsBack ⟨0x3FB999999999999A⟩ := by decide +kernel
  have hstamp : Binary64.ReadsBack ⟨0x4029000000000000⟩ := by decide +kernel
  have hshown : completed.toJson = .obj
      [("kind", .str "result"), ("message_id", .str "id"),
       ("payload", .obj [("context", .arr [.null, .str "\n\"\x1f"]),
          ("weight", .double ⟨0x3FB999999999999A⟩)]),
       ("sender", .str "7"), ("task_id", .str "t"), ("timestamp", .double ⟨0x4029000000000000⟩)] := by
    rfl
  rw [hshown]
  refine .obj (by decide) ?_
  simp only [List.forall_mem_cons, List.not_mem_nil, false_implies, implies_true, and_true]
  refine ⟨.str _, .str _, .obj (by decide) ?_, .str _, .str _, .double hstamp⟩
  simp only [List.forall_mem_cons, List.not_mem_nil, false_implies, implies_true, and_true]
  refine ⟨.arr ?_, .double hweight⟩
  simp only [List.forall_mem_cons, List.not_mem_nil, false_implies, implies_true, and_true]
  exact ⟨.null, .str _⟩

theorem survives_wire_completed :
    ofJson "id" ⟨0x4029000000000000⟩ bare = .ok completed ∧
      ofJson "other" Binary64.zero completed.toJson = .ok completed ∧
      Json.parse completed.toText = .ok completed.toJson ∧
      ofText? "other" Binary64.zero completed.toText = some completed := by
  have hread : ofJson "id" ⟨0x4029000000000000⟩ bare = .ok completed := by rfl
  have hmade : completed.Made ⟨0x4029000000000000⟩ := .read (by decide) hread
  have hclock : (⟨0x4029000000000000⟩ : Binary64).isZero = true →
      Binary64.zero = ⟨0x4029000000000000⟩ := fun h => absurd h (by decide)
  obtain ⟨hvalue, htext⟩ := survives_wire hmade hclock "other"
  exact ⟨hread, hvalue, htext legible_completed⟩

end AgentMesh.Envelope
