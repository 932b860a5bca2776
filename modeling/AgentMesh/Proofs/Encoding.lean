import AgentMesh.Ledger.AuditRecord
import AgentMesh.Peer
import AgentMesh.Proofs.Json.Records
import AgentMesh.Proofs.Time.Texts

/-!
Audit records and peers in JSON text. Both come back from their text, whatever the order of its fields,
and so does everything that was ever read as one (`records_survive`): absent and null fields, fields of
other names, arrays of the fields and times with an offset all end in the same form.
-/

namespace AgentMesh

open Json

section Fields

variable {depth : Nat} {fields : Fields} {key : String}

theorem fits_text? (s : Option String) : Fits depth (.optional .text) (ofText? s) := by
  cases s with
  | none => exact .null _
  | some s => exact .present (.text s)

theorem fits_time {t : Instant} (h : t.Expressible) : Fits depth Rfc3339.shape (Rfc3339.json t) :=
  .textSuch (by rw [Rfc3339.parse?_render h]; rfl)

theorem fits_time? {t : Option Instant} (h : ∀ t' ∈ t, t'.Expressible) :
    Fits depth (.optional Rfc3339.shape) (Rfc3339.json? t) := by
  cases t with
  | none => exact .null _
  | some t => exact .present (fits_time (h t rfl))

theorem text?_of_ofText? {s : Option String} (h : fields.get? key = some (ofText? s)) :
    fields.text? key = s := by
  rw [Fields.text?, h]
  cases s <;> rfl

theorem text?_of_str {s : String} (h : fields.get? key = some (.str s)) :
    fields.text? key = some s :=
  text?_of_ofText? (s := some s) h

theorem field?_of_json? {t : Option Instant} (ht : ∀ t' ∈ t, t'.Expressible)
    (h : fields.get? key = some (Rfc3339.json? t)) : Rfc3339.field? fields key = t := by
  rw [Rfc3339.field?, Fields.text?, h]
  cases t with
  | none => rfl
  | some t =>
    simp only [Rfc3339.json?, Option.elim_some, Rfc3339.json, Option.bind_some, Json.text?,
      Rfc3339.parse?_render (ht t rfl)]

theorem object_of_ofFields {content : Fields} (h : fields.get? key = some (ofFields content)) :
    fields.object key = content := by
  rw [Fields.object, h]
  exact Dict.ofList_entries content

theorem textsOf_mapValues (texts : Dict String) :
    AuditRecord.textsOf (texts.mapValues Json.str) = texts := by
  have hall : (texts.mapValues Json.str).entries.filterMap
      (fun e => e.2.text?.map fun s => (e.1, s)) = texts.entries := by
    simp [Dict.mapValues, List.filterMap_map, Json.text?]
  rw [AuditRecord.textsOf, hall, Dict.ofList_entries]

theorem expressible_of_field? {t : Instant} (h : Rfc3339.field? fields key = some t) :
    t.Expressible := by
  obtain ⟨s, -, hs⟩ := Option.bind_eq_some_iff.mp h
  exact Rfc3339.expressible_of_parse? hs

end Fields

theorem parseRecord_perm {α : Type} {fields : List Field} {ofFields? : Fields → Option α} {a : α}
    {written : List (String × Json)} (hkeys : written.map (·.1) = fields.map (·.name))
    (hnodup : (fields.map (·.name)).Nodup)
    (hfits : ∀ e ∈ written, ∃ f, fields.find? (·.name = e.1) = some f ∧
      Fits (nestingLimit - 1) f.shape e.2)
    (hdecode : ∀ out : Fields, (∀ e ∈ written, out.get? e.1 = some e.2) → ofFields? out = some a)
    {l : List (String × Json)} (hl : l.Perm written) :
    ∃ out, parseRecord fields (symbols (Json.obj l).render) = .ok out ∧ ofFields? out = some a := by
  have hlkeys : (l.map (·.1)).Perm (fields.map (·.name)) := hkeys ▸ hl.map _
  obtain ⟨out, hout, hget⟩ := parseRecord_printed (hlkeys.nodup_iff.mpr hnodup)
    (fun e he => hfits e (hl.mem_iff.mp he))
    (fun f hf => hlkeys.mem_iff.mpr (List.mem_map_of_mem hf))
  exact ⟨out, hout, hdecode out fun e he => hget e (hl.mem_iff.mpr he)⟩

theorem AuditStatus.ofName?_name (s : AuditStatus) : ofName? s.name = some s := by
  cases s <;> rfl

namespace AuditRecord

def written (r : AuditRecord) : List (String × Json) :=
  [("task_id", .str r.taskId), ("owner", ofText? r.owner), ("task", .str r.task),
   ("context", ofFields r.context), ("created_at", Rfc3339.json r.createdAt),
   ("responses", ofTexts r.responses), ("result", ofText? r.result),
   ("finalized_at", Rfc3339.json? r.finalizedAt), ("status", .str r.status.name)]

def times (r : AuditRecord) : List Instant := r.createdAt :: r.finalizedAt.toList

structure Printable (r : AuditRecord) : Prop where
  times : ∀ t ∈ r.times, t.Expressible
  context : Legible (nestingLimit - 1) (ofFields r.context)

variable {r : AuditRecord}

theorem Printable.createdAt (h : r.Printable) : r.createdAt.Expressible :=
  h.times _ List.mem_cons_self

theorem Printable.finalizedAt (h : r.Printable) : ∀ t ∈ r.finalizedAt, t.Expressible :=
  fun t ht => h.times t (List.mem_cons_of_mem _ (Option.mem_toList.mpr ht))

theorem Printable.fits (h : r.Printable) : ∀ e ∈ r.written,
    ∃ f, recordFields.find? (·.name = e.1) = some f ∧ Fits (nestingLimit - 1) f.shape e.2 := by
  have hstatus : r.status.name ∈ AuditStatus.all.map AuditStatus.name := by
    cases r.status <;> decide
  simp only [written, List.forall_mem_cons, List.not_mem_nil, false_implies, implies_true, and_true]
  exact ⟨⟨_, rfl, .text _⟩, ⟨_, rfl, fits_text? _⟩, ⟨_, rfl, .text _⟩, ⟨_, rfl, .object h.context⟩,
    ⟨_, rfl, fits_time h.createdAt⟩, ⟨_, rfl, .textMap (by decide) _⟩, ⟨_, rfl, fits_text? _⟩,
    ⟨_, rfl, fits_time? h.finalizedAt⟩, ⟨_, rfl, .choice hstatus⟩⟩

theorem Printable.ofFields?_of_written (h : r.Printable) {out : Fields}
    (hget : ∀ e ∈ r.written, out.get? e.1 = some e.2) : ofFields? out = some r := by
  simp only [written, List.forall_mem_cons, List.not_mem_nil, false_implies, implies_true,
    and_true] at hget
  obtain ⟨hid, howner, htask, hcontext, hcreated, hresponses, hresult, hfinal, hstatus⟩ := hget
  have hcreated' : Rfc3339.field? out "created_at" = some r.createdAt :=
    field?_of_json? (t := some r.createdAt) (fun _ ht => Option.some.inj ht ▸ h.createdAt) hcreated
  have hresponses' : textsOf (out.object "responses") = r.responses := by
    have hobject : out.object "responses" = r.responses.mapValues Json.str :=
      object_of_ofFields hresponses
    rw [hobject, textsOf_mapValues]
  simp only [AuditRecord.ofFields?, text?_of_str hid, text?_of_ofText? howner, text?_of_str htask,
    object_of_ofFields hcontext, hcreated', hresponses', text?_of_ofText? hresult,
    field?_of_json? h.finalizedAt hfinal, text?_of_str hstatus, Option.bind_some,
    AuditStatus.ofName?_name]
  rfl

theorem Printable.decode?_of_perm (h : r.Printable) {l : List (String × Json)} (hl : l.Perm r.written) :
    decode? (Json.obj l).render = some r := by
  have hkeys : r.written.map (·.1) = recordFields.map (·.name) := rfl
  obtain ⟨out, hout, hr⟩ := parseRecord_perm hkeys (by decide) h.fits (fun _ => h.ofFields?_of_written) hl
  have htext : (Json.obj l).render.toList.map some = symbols (Json.obj l).render := rfl
  unfold AuditRecord.decode?
  rw [htext, hout]
  exact hr

theorem legible_of_parseRecord {text : List Symbol} {out : Fields}
    (h : parseRecord recordFields text = .ok out)
    (hdoubles : ∀ x, Holds x (ofFields (out.object "context")) → x.ReadsBack) :
    Legible (nestingLimit - 1) (ofFields (out.object "context")) := by
  cases hcontext : out.get? "context" with
  | none =>
    rw [Fields.object, hcontext]
    exact .obj .nil nofun
  | some v =>
    obtain ⟨f, hf, hname, hv⟩ := gives_of_parseRecord h hcontext
    have hfield : f.shape = .object ∧ f.absent = .required := by
      simp only [recordFields, List.mem_cons, List.not_mem_nil, or_false] at hf
      rcases hf with rfl | rfl | rfl | rfl | rfl | rfl | rfl | rfl | rfl <;> simp at hname ⊢
    cases hv with
    | read hread =>
      rw [hfield.1] at hread
      obtain ⟨content, rfl, hlegible⟩ := object_of_read hread
      rw [object_of_ofFields hcontext] at hdoubles ⊢
      exact hlegible hdoubles
    -- the field is required, so nothing stands for it
    | null habsent => exact absurd (hfield.2.symm.trans habsent) nofun
    | default habsent => exact absurd (hfield.2.symm.trans habsent) nofun

theorem printable_of_decode? {text : String} (h : AuditRecord.decode? text = some r)
    (hdoubles : ∀ x, Holds x (ofFields r.context) → x.ReadsBack) : r.Printable := by
  unfold AuditRecord.decode? at h
  split at h
  case h_2 => cases h
  case h_1 out hout =>
    obtain ⟨id, -, h⟩ := Option.bind_eq_some_iff.mp h
    obtain ⟨task, -, h⟩ := Option.bind_eq_some_iff.mp h
    obtain ⟨created, hcreated, h⟩ := Option.bind_eq_some_iff.mp h
    obtain ⟨status, -, h⟩ := Option.bind_eq_some_iff.mp h
    cases h
    constructor
    · rintro t (_ | ⟨_, ht⟩)
      · exact expressible_of_field? hcreated
      · exact expressible_of_field? (Option.mem_toList.mp ht)
    · exact legible_of_parseRecord hout hdoubles

end AuditRecord

namespace Peer

def written (p : Peer) : List (String × Json) :=
  [("id", .str p.id), ("endpoint", .str p.endpoint), ("healthy", .bool p.healthy),
   ("last_seen", Rfc3339.json? p.lastSeen), ("last_error", ofText? p.lastError)]

variable {p : Peer}

theorem fits_written (h : ∀ t ∈ p.lastSeen, t.Expressible) : ∀ e ∈ p.written,
    ∃ f, recordFields.find? (·.name = e.1) = some f ∧ Fits (nestingLimit - 1) f.shape e.2 := by
  simp only [written, List.forall_mem_cons, List.not_mem_nil, false_implies, implies_true, and_true]
  exact ⟨⟨_, rfl, .text _⟩, ⟨_, rfl, .text _⟩, ⟨_, rfl, .flag _⟩, ⟨_, rfl, fits_time? h⟩,
    ⟨_, rfl, fits_text? _⟩⟩

theorem ofFields?_of_written (h : ∀ t ∈ p.lastSeen, t.Expressible) {out : Fields}
    (hget : ∀ e ∈ p.written, out.get? e.1 = some e.2) : ofFields? out = some p := by
  simp only [written, List.forall_mem_cons, List.not_mem_nil, false_implies, implies_true,
    and_true] at hget
  obtain ⟨hid, hendpoint, hhealthy, hseen, herror⟩ := hget
  simp only [ofFields?, text?_of_str hid, text?_of_str hendpoint, hhealthy,
    field?_of_json? h hseen, text?_of_ofText? herror, Option.bind_some, Json.bool?]
  rfl

theorem decode?_of_perm (h : ∀ t ∈ p.lastSeen, t.Expressible) {l : List (String × Json)}
    (hl : l.Perm p.written) : decode? (Json.obj l).render = some p := by
  have hkeys : p.written.map (·.1) = recordFields.map (·.name) := rfl
  obtain ⟨out, hout, hp⟩ := parseRecord_perm hkeys (by decide) (fits_written h)
    (fun _ => ofFields?_of_written h) hl
  have htext : (Json.obj l).render.toList.map some = symbols (Json.obj l).render := rfl
  unfold decode?
  rw [htext, hout]
  exact hp

theorem expressible_of_decode? {text : String} (h : decode? text = some p) :
    ∀ t ∈ p.lastSeen, t.Expressible := by
  unfold decode? at h
  split at h
  case h_2 => cases h
  case h_1 out hout =>
    obtain ⟨id, -, h⟩ := Option.bind_eq_some_iff.mp h
    obtain ⟨endpoint, -, h⟩ := Option.bind_eq_some_iff.mp h
    obtain ⟨healthy, -, h⟩ := Option.bind_eq_some_iff.mp h
    cases h
    exact fun t ht => expressible_of_field? ht

end Peer

/-- Between the years 0 and 9999, and in no leap second. -/
def Instant.IsCommon (t : Instant) : Prop := t.leap = false ∧ 0 ≤ t.date.year ∧ t.date.year ≤ 9999

instance (t : Instant) : Decidable t.IsCommon := inferInstanceAs (Decidable (_ ∧ _))

theorem Instant.IsCommon.expressible {t : Instant} (h : t.IsCommon) : t.Expressible :=
  expressible_of_year h.1 h.2.1 h.2.2

/-- A record comes back from the text of its JSON object, and from every text of these fields in another
order. -/
def AuditRecord.Survives (r : AuditRecord) : Prop :=
  decode? r.toJson.render = some r ∧
    ∀ l : List (String × Json), l.Perm r.written → decode? (Json.obj l).render = some r

def Peer.Survives (p : Peer) : Prop :=
  decode? p.toJson.render = some p ∧
    ∀ l : List (String × Json), l.Perm p.written → decode? (Json.obj l).render = some p

theorem AuditRecord.Printable.survives {r : AuditRecord} (h : r.Printable) : r.Survives := by
  have hkeys : (r.written.map (·.1)).Nodup := by
    change (recordFields.map (·.name)).Nodup
    decide
  exact ⟨h.decode?_of_perm (Dict.entries_ofList_perm hkeys), fun l hl => h.decode?_of_perm hl⟩

theorem Peer.survives_of_expressible {p : Peer} (h : ∀ t ∈ p.lastSeen, t.Expressible) :
    p.Survives := by
  have hkeys : (p.written.map (·.1)).Nodup := by
    change (recordFields.map (·.name)).Nodup
    decide
  exact ⟨decode?_of_perm h (Dict.entries_ofList_perm hkeys), fun l hl => decode?_of_perm h hl⟩

/-- Audit records and peers survive their text. A record does if its times are common ones and text can
carry its context; a peer does if it was last seen at a common time. Whatever text they were decoded from,
what was decoded survives, as far as the doubles of the context are read back. -/
theorem records_survive :
    (∀ r : AuditRecord, (∀ t ∈ r.times, t.IsCommon) →
      Legible (nestingLimit - 1) (ofFields r.context) → r.Survives) ∧
    (∀ p : Peer, (∀ t ∈ p.lastSeen, t.IsCommon) → p.Survives) ∧
    (∀ (text : String) (r : AuditRecord), AuditRecord.decode? text = some r →
      (∀ x, Holds x (ofFields r.context) → x.ReadsBack) → r.Survives) ∧
    ∀ (text : String) (p : Peer), Peer.decode? text = some p → p.Survives := by
  refine ⟨fun r htimes hcontext => ?_, fun p hseen => ?_, fun text r h hdoubles => ?_,
    fun text p h => ?_⟩
  · exact AuditRecord.Printable.survives ⟨fun t ht => (htimes t ht).expressible, hcontext⟩
  · exact Peer.survives_of_expressible fun t ht => (hseen t ht).expressible
  · exact (AuditRecord.printable_of_decode? h hdoubles).survives
  · exact Peer.survives_of_expressible (Peer.expressible_of_decode? h)

/-- A record as an array of its fields, opened in a leap second and with times at offsets. -/
def listedText : String :=
  "[\"t\",null,\"sum\",\x7b\"b\":[1,[]],\"a\":-0.5\x7d,\"2016-12-31T18:29:60.5-05:30\"," ++
    "\x7b\"z\":\"1\"\x7d,null,\"2024-02-29 00:00:00+05:30\",\x7b\"consensus\":null\x7d]"

def listed : AuditRecord :=
  { taskId := "t", owner := none, task := "sum",
    context := Dict.ofList [("a", .double ⟨0xBFE0000000000000⟩), ("b", .arr [.int 1, .arr []])],
    createdAt := ⟨1483228799500000000, true⟩, responses := Dict.ofList [("z", "1")], result := none,
    finalizedAt := some ⟨1709145000000000000, false⟩, status := .consensus }

def unseenText : String := "\x7b\"x\":[1e999],\"healthy\":true,\"endpoint\":\"\",\"id\":\"\\u00e9\"\x7d"

def unseen : Peer :=
  { id := "é", endpoint := "", healthy := true, lastSeen := none, lastError := none }

theorem records_survive_listed :
    AuditRecord.decode? listedText = some listed ∧ listed.Survives ∧
      ({ listed with createdAt := ⟨1483228799000000001, false⟩ } : AuditRecord).Survives ∧
      Peer.decode? unseenText = some unseen ∧ unseen.Survives ∧
      (unseen.failed "x" ⟨-62167219200000000000, false⟩).Survives := by
  obtain ⟨hrecord, hpeer, hdecoded, hdecodedPeer⟩ := records_survive
  have hlisted : AuditRecord.decode? listedText = some listed := by decide +kernel
  have hunseen : Peer.decode? unseenText = some unseen := by decide +kernel
  have hback : Binary64.ReadsBack ⟨0xBFE0000000000000⟩ := by decide +kernel
  have hcontext : ofFields listed.context =
      .obj [("a", .double ⟨0xBFE0000000000000⟩), ("b", .arr [.int 1, .arr []])] := by rfl
  have hlegible : Legible (nestingLimit - 1) (ofFields listed.context) := by
    rw [hcontext]
    refine .obj (by decide) ?_
    simp only [List.forall_mem_cons, List.not_mem_nil, false_implies, implies_true, and_true]
    refine ⟨.double hback, .arr ?_⟩
    simp only [List.forall_mem_cons, List.not_mem_nil, false_implies, implies_true, and_true]
    exact ⟨.int (by decide) (by decide), .arr nofun⟩
  exact ⟨hlisted, hdecoded _ _ hlisted fun _ => hlegible.readsBack, hrecord _ (by decide) hlegible,
    hunseen, hdecodedPeer _ _ hunseen, hpeer _ (by decide)⟩

end AgentMesh
