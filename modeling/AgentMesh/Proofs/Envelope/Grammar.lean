import AgentMesh.Proofs.Envelope.Wire

/-!
The grammar of envelopes. A value is an envelope if it is an object whose fields carry a message; the
first of its kind, sender, task and payload that is not what it has to be tells the fault. Nothing else
in it counts for that (`Envelope.ofJson_exact`).
-/

namespace AgentMesh.Envelope

/-- The text that a value stands for where a text is asked for. -/
inductive Denotes : Json → String → Prop
  | text (s : String) : Denotes (.str s) s
  | int (i : Int) : Denotes (.int i) (Json.int i).render
  | double (x : Binary64) : Denotes (.double x) (Json.double x).render

structure Carries (fields : Fields) (m : Message) : Prop where
  kind : fields.get? "kind" = some (.str m.kind.name)
  sender : ∃ v, fields.get? "sender" = some v ∧ Denotes v m.sender
  taskId : ∃ v, fields.get? "task_id" = some v ∧ Denotes v m.taskId
  payload : (∀ v, fields.get? "payload" = some v → v = .null) ∧ m.payload = Dict.empty ∨
    ∃ v, fields.get? "payload" = some v ∧ v.fields? = some m.payload

def Identified (fresh : String) (fields : Fields) (id : String) : Prop :=
  id ≠ "" ∧ fields.get? "message_id" = some (.str id) ∨
    id = fresh ∧ ∀ s, fields.get? "message_id" = some (.str s) → s = ""

def Dated (now : Binary64) (fields : Fields) (time : Binary64) : Prop :=
  let given := (fields.get? "timestamp").bind Json.real?
  time.isZero = false ∧ given = some time ∨ time = now ∧ ∀ t, given = some t → t.isZero = true

inductive Check
  | kind
  | text (field : String)
  | payload

namespace Check

inductive Finds (fields : Fields) : Check → EnvelopeFault → Prop
  | noKind (h : fields.get? "kind" = none) : Finds fields kind (.missing "kind")
  | strangeKind {s : String} (h : fields.get? "kind" = some (.str s))
      (hs : ∀ k : Kind, s ≠ k.name) : Finds fields kind (.unsupportedKind s)
  | kindNotText {v : Json} (h : fields.get? "kind" = some v) (hv : ∀ s, v ≠ .str s) :
      Finds fields kind (.unsupportedKind v.render)
  | absent {field : String} (h : fields.get? field = none) :
      Finds fields (text field) (.missing field)
  | notText {field : String} {v : Json} (h : fields.get? field = some v)
      (hv : ∀ s, ¬Denotes v s) : Finds fields (text field) (.notText field)
  | payloadNotObject {v : Json} (h : fields.get? "payload" = some v) (hnull : v ≠ .null)
      (hv : v.fields? = none) : Finds fields payload .payloadNotObject

def all : List Check := [kind, text "sender", text "task_id", payload]

/-- The fault of the first of some checks that finds one. -/
inductive First (fields : Fields) : List Check → EnvelopeFault → Prop
  | here {c : Check} {rest : List Check} {fault : EnvelopeFault} (h : c.Finds fields fault) :
      First fields (c :: rest) fault
  | later {c : Check} {rest : List Check} {fault : EnvelopeFault} (h : ∀ f, ¬c.Finds fields f)
      (hrest : First fields rest fault) : First fields (c :: rest) fault

end Check

variable {fields : Fields} {fault : EnvelopeFault}

/-- A reader of a field fails with the fault that a check finds, and with no other. -/
def Performs {α : Type} (fields : Fields) (x : Except EnvelopeFault α) (c : Check) : Prop :=
  ∀ fault, x = .error fault ↔ c.Finds fields fault

theorem bind_eq_error_iff {α β : Type} {x : Except EnvelopeFault α}
    {f : α → Except EnvelopeFault β} {c : Check} {rest : List Check} (hx : Performs fields x c)
    (hf : ∀ a, f a = .error fault ↔ Check.First fields rest fault) :
    x >>= f = .error fault ↔ Check.First fields (c :: rest) fault := by
  cases x with
  | error e =>
    constructor
    · intro h
      cases h
      exact .here ((hx fault).mp rfl)
    · intro h
      cases h with
      | here h =>
        cases (hx fault).mpr h
        rfl
      | later h => exact absurd ((hx e).mp rfl) (h e)
  | ok a =>
    have hnone : ∀ e, ¬c.Finds fields e := fun e he => nomatch (hx e).mpr he
    constructor
    · exact fun h => .later hnone ((hf a).mp h)
    · intro h
      cases h with
      | here h => exact absurd h (hnone fault)
      | later _ h => exact (hf a).mpr h

theorem Check.Finds.unique {c : Check} {f g : EnvelopeFault} (h : c.Finds fields f)
    (h' : c.Finds fields g) : f = g := by
  cases h <;> cases h' <;> grind

theorem performs_of {α : Type} {x : Except EnvelopeFault α} {c : Check}
    (hok : ∀ a, x = .ok a → ∀ f, ¬c.Finds fields f) (herror : ∀ e, x = .error e → c.Finds fields e) :
    Performs fields x c := by
  intro fault
  cases x with
  | ok a => exact iff_of_false nofun (hok a rfl fault)
  | error e =>
    constructor
    · intro h
      cases h
      exact herror _ rfl
    · exact fun h => congrArg _ ((herror e rfl).unique h)

theorem Denotes.iff {v : Json} {s : String} :
    Denotes v s ↔ v.text?.or v.numberText? = some s := by
  constructor
  · rintro (_ | _ | _) <;> rfl
  · cases v <;> simp [Json.text?, Json.numberText?]
    case int i => exact fun h => h ▸ .int i
    case double x => exact fun h => h ▸ .double x
    case str t => exact fun h => h ▸ .text t

theorem kindOf_eq_ok {k : Kind} :
    kindOf fields = .ok k ↔ fields.get? "kind" = some (.str k.name) := by
  unfold kindOf
  split
  · next h => simp [h]
  · next s h =>
    rw [h, Option.some.injEq, Json.str.injEq, ← Kind.ofName?_eq_some_iff, Kind.ofText]
    cases Kind.ofName? s <;> simp
  · next v hv h =>
    simp only [h, reduceCtorEq, Option.some.injEq, false_iff]
    exact hv k.name

theorem performs_kind : Performs fields (kindOf fields) .kind := by
  refine performs_of (fun k hk fault hfault => ?_) fun fault hfault => ?_
  · have h := kindOf_eq_ok.mp hk
    rcases hfault with h' | ⟨h', hs⟩ | ⟨h', hv⟩ <;> rw [h] at h' <;> cases h'
    · exact hs k rfl
    · exact hv k.name rfl
  · unfold kindOf at hfault
    split at hfault
    · next h =>
      cases hfault
      exact .noKind h
    · next s h =>
      rw [Kind.ofText] at hfault
      cases hs : Kind.ofName? s with
      | some k =>
        rw [hs] at hfault
        cases hfault
      | none =>
        rw [hs] at hfault
        cases hfault
        refine .strangeKind h fun k hk => ?_
        rw [hk, Kind.ofName?_name] at hs
        cases hs
    · next v hv h =>
      cases hfault
      exact .kindNotText h hv

theorem requiredText_of_some {field : String} {v : Json} (h : fields.get? field = some v) :
    requiredText fields field =
      (v.text?.or v.numberText?).elim (.error (.notText field)) .ok := by
  rw [requiredText, h]
  dsimp only
  cases v.text? <;> cases v.numberText? <;> rfl

theorem requiredText_eq_ok {field s : String} :
    requiredText fields field = .ok s ↔ ∃ v, fields.get? field = some v ∧ Denotes v s := by
  cases h : fields.get? field with
  | none => simp [requiredText, h]
  | some v =>
    simp only [requiredText_of_some h, Option.some.injEq, exists_eq_left', Denotes.iff]
    cases v.text?.or v.numberText? <;> simp

theorem performs_text (field : String) :
    Performs fields (requiredText fields field) (.text field) := by
  refine performs_of (fun s hs fault hfault => ?_) fun fault hfault => ?_
  · obtain ⟨v, h, hv⟩ := requiredText_eq_ok.mp hs
    rcases hfault with _ | _ | _ | h' | ⟨h', hno⟩ <;> rw [h] at h' <;> cases h'
    exact hno s hv
  · cases h : fields.get? field with
    | none =>
      rw [requiredText, h] at hfault
      cases hfault
      exact .absent h
    | some v =>
      rw [requiredText_of_some h] at hfault
      cases ht : v.text?.or v.numberText? with
      | some s =>
        rw [ht] at hfault
        cases hfault
      | none =>
        rw [ht] at hfault
        cases hfault
        refine .notText h fun s hs => ?_
        rw [Denotes.iff.mp hs] at ht
        cases ht

theorem payloadOf_eq_ok {p : Fields} :
    payloadOf fields = .ok p ↔
      (∀ v, fields.get? "payload" = some v → v = .null) ∧ p = Dict.empty ∨
        ∃ v, fields.get? "payload" = some v ∧ v.fields? = some p := by
  unfold payloadOf
  split
  · next h => simp [h, eq_comm]
  · next h => simp [h, Json.fields?, eq_comm]
  · next l h => simp [h, Json.fields?]
  · next v hnull hobj h =>
    cases v <;> simp_all [Json.fields?]

theorem performs_payload : Performs fields (payloadOf fields) .payload := by
  refine performs_of (fun p hp fault hfault => ?_) fun fault hfault => ?_
  · rcases hfault with _ | _ | _ | _ | _ | ⟨h, hnull, hno⟩
    rcases payloadOf_eq_ok.mp hp with ⟨hall, -⟩ | ⟨v, h', hv⟩
    · exact hnull (hall _ h)
    · rw [h] at h'
      cases h'
      rw [hno] at hv
      cases hv
  · unfold payloadOf at hfault
    split at hfault
    · cases hfault
    · cases hfault
    · cases hfault
    · next v hnull hobj h =>
      cases hfault
      have hv : v.fields? = none := by cases v <;> simp_all [Json.fields?]
      exact .payloadNotObject h hnull hv

theorem messageIdOf_eq_iff {fresh id : String} :
    messageIdOf fresh fields = id ↔ Identified fresh fields id := by
  unfold messageIdOf Identified
  split
  · next s h =>
    simp only [h, Option.some.injEq, Json.str.injEq, String.isEmpty_iff, forall_eq']
    split <;> grind
  · next h => grind

theorem timestampOf_eq_iff {now time : Binary64} :
    timestampOf now fields = time ↔ Dated now fields time := by
  unfold timestampOf Dated
  cases (fields.get? "timestamp").bind Json.real? with
  | none => simpa using eq_comm
  | some t => cases ht : t.isZero <;> grind

def messageOf (fields : Fields) : Except EnvelopeFault Message := do
  let kind ← kindOf fields
  let sender ← requiredText fields "sender"
  let taskId ← requiredText fields "task_id"
  let payload ← payloadOf fields
  return { kind, sender, taskId, payload }

theorem messageOf_eq_ok {m : Message} : messageOf fields = .ok m ↔ Carries fields m := by
  constructor
  · intro h
    obtain ⟨kind, hkind, h⟩ := Json.bind_eq_ok.mp h
    obtain ⟨sender, hsender, h⟩ := Json.bind_eq_ok.mp h
    obtain ⟨taskId, htask, h⟩ := Json.bind_eq_ok.mp h
    obtain ⟨payload, hpayload, h⟩ := Json.bind_eq_ok.mp h
    cases h
    exact ⟨kindOf_eq_ok.mp hkind, requiredText_eq_ok.mp hsender, requiredText_eq_ok.mp htask,
      payloadOf_eq_ok.mp hpayload⟩
  · intro h
    refine Json.bind_eq_ok.mpr ⟨_, kindOf_eq_ok.mpr h.kind, ?_⟩
    refine Json.bind_eq_ok.mpr ⟨_, requiredText_eq_ok.mpr h.sender, ?_⟩
    refine Json.bind_eq_ok.mpr ⟨_, requiredText_eq_ok.mpr h.taskId, ?_⟩
    exact Json.bind_eq_ok.mpr ⟨_, payloadOf_eq_ok.mpr h.payload, rfl⟩

theorem messageOf_eq_error :
    messageOf fields = .error fault ↔ Check.First fields Check.all fault := by
  refine bind_eq_error_iff performs_kind fun kind => ?_
  refine bind_eq_error_iff (performs_text "sender") fun sender => ?_
  refine bind_eq_error_iff (performs_text "task_id") fun taskId => ?_
  exact bind_eq_error_iff performs_payload fun payload => ⟨nofun, nofun⟩

theorem messageOf_congr {fields' : Fields}
    (h : ∀ key ∈ ["kind", "sender", "task_id", "payload"], fields.get? key = fields'.get? key) :
    messageOf fields = messageOf fields' := by
  simp only [List.forall_mem_cons, List.not_mem_nil, false_implies, implies_true, and_true] at h
  obtain ⟨hkind, hsender, htask, hpayload⟩ := h
  simp only [messageOf, kindOf, requiredText, payloadOf, hkind, hsender, htask, hpayload]

variable {v : Json} {fresh : String} {now : Binary64} {e : Envelope}

theorem ofJson_of_fields (h : v.fields? = some fields) :
    ofJson fresh now v = (messageOf fields).map fun m =>
      { m with messageId := messageIdOf fresh fields, timestamp := timestampOf now fields } := by
  unfold ofJson messageOf
  rw [h]
  dsimp only
  cases kindOf fields <;> cases requiredText fields "sender" <;>
    cases requiredText fields "task_id" <;> cases payloadOf fields <;> rfl

theorem ofJson_of_not_object (h : v.fields? = none) : ofJson fresh now v = .error .notObject := by
  unfold ofJson
  rw [h]
  rfl

theorem ofJson_eq_ok_iff :
    ofJson fresh now v = .ok e ↔ ∃ fields, v.fields? = some fields ∧ Carries fields e.toMessage ∧
      Identified fresh fields e.messageId ∧ Dated now fields e.timestamp := by
  cases hv : v.fields? with
  | none => simp [ofJson_of_not_object hv]
  | some fields =>
    simp only [ofJson_of_fields hv, Json.map_eq_ok, Option.some.injEq, exists_eq_left',
      messageOf_eq_ok, ← messageIdOf_eq_iff, ← timestampOf_eq_iff]
    constructor
    · rintro ⟨m, hm, rfl⟩
      exact ⟨hm, rfl, rfl⟩
    · rintro ⟨hm, hid, htime⟩
      refine ⟨e.toMessage, hm, ?_⟩
      rw [hid, htime]

theorem map_eq_error {α β : Type} {x : Except EnvelopeFault α} {f : α → β} :
    x.map f = .error fault ↔ x = .error fault := by
  cases x <;> simp [Except.map]

theorem ofJson_eq_error_iff :
    ofJson fresh now v = .error fault ↔ v.fields? = none ∧ fault = .notObject ∨
      ∃ fields, v.fields? = some fields ∧ Check.First fields Check.all fault := by
  cases hv : v.fields? with
  | none => simp [ofJson_of_not_object hv, eq_comm]
  | some fields => simp [ofJson_of_fields hv, map_eq_error, messageOf_eq_error]

theorem Check.First.exists_finds {cs : List Check} (h : First fields cs fault) :
    ∃ c : Check, c.Finds fields fault := by
  induction h with
  | here h => exact ⟨_, h⟩
  | later _ _ ih => exact ih

theorem first_unsupported_iff :
    (∃ shown, Check.First fields Check.all (.unsupportedKind shown)) ↔
      ∃ w, fields.get? "kind" = some w ∧ ∀ k : Kind, w ≠ .str k.name := by
  constructor
  · rintro ⟨shown, h⟩
    obtain ⟨c, hc⟩ := h.exists_finds
    cases hc with
    | strangeKind hkind hs => exact ⟨_, hkind, fun k hk => hs k (Json.str.inj hk)⟩
    | kindNotText hkind hv => exact ⟨_, hkind, fun k => hv k.name⟩
  · rintro ⟨w, hw, hk⟩
    by_cases hs : ∃ s, w = .str s
    · obtain ⟨s, rfl⟩ := hs
      exact ⟨s, .here (.strangeKind hw fun k hsk => hk k (hsk ▸ rfl))⟩
    · exact ⟨w.render, .here (.kindNotText hw (not_exists.mp hs))⟩

/-- A value is read as an envelope if and only if it is an object whose fields carry a message. The
envelope carries that message, and it has an identifier. Any other value is refused with the fault of
the first check that fails, which is an unsupported kind if and only if a kind is there that is none of
the four. Fields other than those of the message do not count for any of this. -/
theorem ofJson_exact (hfresh : fresh ≠ "") (now : Binary64) (v : Json) :
    ((∃ e, ofJson fresh now v = .ok e) ↔ ∃ fields m, v.fields? = some fields ∧ Carries fields m) ∧
    (∀ e, ofJson fresh now v = .ok e ↔
      ∃ fields, v.fields? = some fields ∧ Carries fields e.toMessage ∧
        Identified fresh fields e.messageId ∧ Dated now fields e.timestamp) ∧
    (∀ e, ofJson fresh now v = .ok e → e.messageId ≠ "") ∧
    (∀ fault, ofJson fresh now v = .error fault ↔ v.fields? = none ∧ fault = .notObject ∨
      ∃ fields, v.fields? = some fields ∧ Check.First fields Check.all fault) ∧
    ((∃ shown, ofJson fresh now v = .error (.unsupportedKind shown)) ↔
      ∃ fields w, v.fields? = some fields ∧ fields.get? "kind" = some w ∧
        ∀ k : Kind, w ≠ .str k.name) ∧
    ∀ v' fields fields' fresh' now', v.fields? = some fields → v'.fields? = some fields' →
      (∀ key ∈ ["kind", "sender", "task_id", "payload"], fields.get? key = fields'.get? key) →
      (ofJson fresh now v).map toMessage = (ofJson fresh' now' v').map toMessage := by
  refine ⟨?_, fun e => ofJson_eq_ok_iff, ?_, fun fault => ofJson_eq_error_iff, ?_, ?_⟩
  · constructor
    · rintro ⟨e, he⟩
      obtain ⟨fields, hv, hm, -⟩ := ofJson_eq_ok_iff.mp he
      exact ⟨fields, e.toMessage, hv, hm⟩
    · rintro ⟨fields, m, hv, hm⟩
      rw [ofJson_of_fields hv, messageOf_eq_ok.mpr hm]
      exact ⟨_, rfl⟩
  · intro e he
    exact (Made.read hfresh he).proper.1
  · cases hv : v.fields? with
    | none => simp [ofJson_of_not_object hv]
    | some fields =>
      simp [ofJson_of_fields hv, map_eq_error, messageOf_eq_error, first_unsupported_iff]
  · intro v' fields fields' fresh' now' hv hv' hfields
    rw [ofJson_of_fields hv, ofJson_of_fields hv', messageOf_congr hfields]
    cases messageOf fields' <;> rfl

/-- A value with two faults, of which the kind is found first. -/
theorem ofJson_exact_gossip :
    let now : Binary64 := ⟨0x4029000000000000⟩
    let v := Json.object
      [("kind", .str "gossip"), ("sender", .null), ("payload", .int 1), ("task_id", .str "t")]
    "id" ≠ "" ∧ ofJson "id" now v = .error (.unsupportedKind "gossip") ∧
      ofJson "id" now bare = .ok completed ∧ completed.messageId ≠ "" := by
  intro now v
  have hfresh : "id" ≠ "" := by decide
  obtain ⟨-, -, -, hfault, -⟩ := ofJson_exact hfresh now v
  obtain ⟨-, -, hid, -⟩ := ofJson_exact hfresh now bare
  have hgossip : ∀ k : Kind, "gossip" ≠ k.name := by rintro (_ | _ | _ | _) <;> decide
  have hread : ofJson "id" now bare = .ok completed := by rfl
  refine ⟨hfresh, (hfault _).mpr (.inr ⟨_, rfl, .here (.strangeKind rfl hgossip)⟩), hread, ?_⟩
  exact hid _ hread

end AgentMesh.Envelope
