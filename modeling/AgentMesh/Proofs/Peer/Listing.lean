import AgentMesh.Peer

/-!
Lists of neighbours as text. A list is read fragment by fragment, so what is joined by a comma is read one
part after the other. Names and endpoints that can stand in a list come back from it whatever blanks
stand around them, and nothing else is ever read from a list (`Peer.parseList_exact`).
-/

namespace AgentMesh.Peer

/-- A name and an endpoint that can stand in a list of neighbours. -/
structure Listable (id endpoint : List Char) : Prop where
  id_ne : id ≠ []
  endpoint_ne : endpoint ≠ []
  id_tight : Text.Tight id
  endpoint_tight : Text.Tight endpoint
  id_comma : ',' ∉ id
  endpoint_comma : ',' ∉ endpoint
  id_equals : '=' ∉ id

structure Entry where
  before : String
  id : String
  afterId : String
  beforeEndpoint : String
  endpoint : String
  after : String

namespace Entry

def text (e : Entry) : String :=
  e.before ++ e.id ++ e.afterId ++ "=" ++ (e.beforeEndpoint ++ e.endpoint ++ e.after)

structure Proper (e : Entry) : Prop where
  listable : Listable e.id.toList e.endpoint.toList
  blank : ∀ s ∈ [e.before, e.afterId, e.beforeEndpoint, e.after], ∀ c ∈ s.toList, Text.isBlank c = true

def peer (e : Entry) : Peer := ofEndpoint e.id e.endpoint

end Entry

theorem ofFragment?_of_cut {fragment name url : List Char}
    (h : Text.cutAt '=' fragment = some (name, url)) :
    ofFragment? fragment =
      if (Text.trim name).isEmpty || (Text.trim url).isEmpty then none
      else some (ofEndpoint (String.ofList (Text.trim name)) (String.ofList (Text.trim url))) := by
  rw [ofFragment?, h]

theorem ofFragment?_of_bare {fragment : List Char} (h : Text.cutAt '=' fragment = none) :
    ofFragment? fragment =
      if fragment.isEmpty then none
      else some (ofEndpoint (String.ofList fragment) (String.ofList fragment)) := by
  rw [ofFragment?, h]
  dsimp only
  rw [Bool.or_self]

theorem listable_of_ofFragment? {fragment : List Char} {p : Peer} (htight : Text.Tight fragment)
    (hcomma : ',' ∉ fragment) (h : ofFragment? fragment = some p) :
    Listable p.id.toList p.endpoint.toList := by
  cases hcut : Text.cutAt '=' fragment with
  | none =>
    rw [ofFragment?_of_bare hcut] at h
    split at h
    · cases h
    · next hne =>
      cases h
      have hequals := Text.not_mem_of_cutAt hcut
      rw [List.isEmpty_iff] at hne
      simpa only [ofEndpoint, String.toList_ofList] using
        ⟨hne, hne, htight, htight, hcomma, hcomma, hequals⟩
  | some cut =>
    obtain ⟨name, url⟩ := cut
    obtain ⟨rfl, hequals⟩ := Text.eq_of_cutAt hcut
    rw [ofFragment?_of_cut hcut] at h
    split at h
    · cases h
    · next hne =>
      cases h
      simp only [Bool.or_eq_true, List.isEmpty_iff, not_or] at hne
      simp only [List.mem_append, List.mem_cons, not_or] at hcomma
      have hname := (Text.trim_sublist name).subset
      have hurl := (Text.trim_sublist url).subset
      simpa only [ofEndpoint, String.toList_ofList] using
        ⟨hne.1, hne.2, Text.tight_trim name, Text.tight_trim url, fun h => hcomma.1 (hname h),
          fun h => hcomma.2.2 (hurl h), fun h => hequals (hname h)⟩

namespace Entry

variable {e : Entry}

theorem toList_text (e : Entry) : e.text.toList =
    (e.before.toList ++ e.id.toList ++ e.afterId.toList) ++
      '=' :: (e.beforeEndpoint.toList ++ e.endpoint.toList ++ e.after.toList) := by
  simp [text]

theorem not_mem_of_blank {c : Char} (hc : Text.isBlank c = false) {s : List Char}
    (hs : ∀ c ∈ s, Text.isBlank c = true) : c ∉ s := by
  intro h
  rw [hs c h] at hc
  cases hc

theorem Proper.parseList_text (h : e.Proper) : parseList e.text = [e.peer] := by
  have hblank := h.blank
  simp only [List.forall_mem_cons, List.not_mem_nil, false_implies, implies_true, and_true] at hblank
  obtain ⟨hbefore, hafterId, hbeforeEndpoint, hafter⟩ := hblank
  obtain ⟨hid, hendpoint, hidTight, hendpointTight, hidComma, hendpointComma, hequals⟩ := h.listable
  have hfragment : ',' ∉ e.text.toList := by
    have hcomma : Text.isBlank ',' = false := by decide
    simp [toList_text, hidComma, hendpointComma, not_mem_of_blank hcomma hbefore,
      not_mem_of_blank hcomma hafterId, not_mem_of_blank hcomma hbeforeEndpoint,
      not_mem_of_blank hcomma hafter]
  have hname : Text.trim (e.id.toList ++ e.afterId.toList) = e.id.toList := by
    simpa using Text.trim_append hidTight hid (a := []) (by simp) hafterId
  have hurl : Text.trim (e.beforeEndpoint.toList ++ e.endpoint.toList) = e.endpoint.toList := by
    simpa using Text.trim_append hendpointTight hendpoint hbeforeEndpoint (b := []) (by simp)
  have hequals' : '=' ∉ e.id.toList ++ e.afterId.toList := by
    have hblank : Text.isBlank '=' = false := by decide
    simp [hequals, not_mem_of_blank hblank hafterId]
  have htrim : Text.trim e.text.toList = (e.id.toList ++ e.afterId.toList) ++
      '=' :: (e.beforeEndpoint.toList ++ e.endpoint.toList) := by
    have htight := hidTight.append hendpointTight hid hendpoint
      (e.afterId.toList ++ '=' :: e.beforeEndpoint.toList)
    simpa [toList_text] using Text.trim_append htight (by simp [hid]) hbefore hafter
  have hread : ofFragment? (Text.trim e.text.toList) = some e.peer := by
    rw [htrim, ofFragment?_of_cut (Text.cutAt_append hequals' _), hname, hurl, if_neg]
    · rw [String.ofList_toList, String.ofList_toList, peer]
    · rw [Bool.or_eq_true, List.isEmpty_iff, List.isEmpty_iff, not_or]
      exact ⟨hid, hendpoint⟩
  rw [parseList, parseChars, Text.pieces_of_not_mem hfragment, List.filterMap_cons, hread]
  rfl

end Entry

theorem parseList_append (a b : String) :
    parseList (a ++ "," ++ b) = parseList a ++ parseList b := by
  have htext : (a ++ "," ++ b).toList = a.toList ++ ',' :: b.toList := by simp
  rw [parseList, htext, parseChars, Text.pieces_append, List.filterMap_append]
  rfl

theorem parseList_entries {entries : List Entry} (h : ∀ e ∈ entries, e.Proper) :
    parseList (Text.joinWith "," (entries.map Entry.text)) = entries.map Entry.peer := by
  induction entries with
  | nil => rfl
  | cons e rest ih =>
    have he := (h e List.mem_cons_self).parseList_text
    cases rest with
    | nil => exact he
    | cons f rest =>
      have hrest := ih fun g hg => h g (List.mem_cons_of_mem e hg)
      simp only [List.map_cons, Text.joinWith] at hrest ⊢
      rw [parseList_append, he, hrest]
      rfl

theorem listable_of_mem_parseList {raw : String} {p : Peer} (h : p ∈ parseList raw) :
    Listable p.id.toList p.endpoint.toList := by
  obtain ⟨piece, hpiece, hp⟩ := List.mem_filterMap.mp h
  refine listable_of_ofFragment? (Text.tight_trim piece) (fun hcomma => ?_) hp
  exact Text.not_mem_of_mem_pieces hpiece ((Text.trim_sublist piece).subset hcomma)

/-- Two lists of neighbours with a comma between them are read one after the other. A list of names and
endpoints is read as it was written, in its order, whatever blanks are put around them. Whatever is read
from any text has a name and an endpoint that can stand in a list. -/
theorem parseList_exact :
    (∀ a b : String, parseList (a ++ "," ++ b) = parseList a ++ parseList b) ∧
    (∀ entries : List Entry, (∀ e ∈ entries, e.Proper) →
      parseList (Text.joinWith "," (entries.map Entry.text)) =
        entries.map fun e => ofEndpoint e.id e.endpoint) ∧
    ∀ raw : String, ∀ p ∈ parseList raw, Listable p.id.toList p.endpoint.toList :=
  ⟨parseList_append, fun _ h => parseList_entries h, fun _ _ h => listable_of_mem_parseList h⟩

theorem parseList_exact_blanks :
    let entries : List Entry :=
      [⟨" ", "b", "\t", "", "http://b/?x=1", ""⟩, ⟨"", "c d", "", "\u2003", "e", "\n"⟩]
    (∀ e ∈ entries, e.Proper) ∧
      Text.joinWith "," (entries.map Entry.text) = " b\t=http://b/?x=1,c d=\u2003e\n" ∧
      parseList " b\t=http://b/?x=1,c d=\u2003e\n" =
        [ofEndpoint "b" "http://b/?x=1", ofEndpoint "c d" "e"] := by
  intro entries
  have hproper : ∀ e ∈ entries, e.Proper := by
    have hblank : ∀ s ∈ [" ", "\t", "", ""], s.toList.all Text.isBlank = true := by decide
    have hblank' : ∀ s ∈ ["", "", "\u2003", "\n"], s.toList.all Text.isBlank = true := by decide
    simp only [entries, List.forall_mem_cons, List.not_mem_nil, false_implies, implies_true, and_true]
    exact ⟨⟨by constructor <;> decide, fun s hs => List.all_eq_true.mp (hblank s hs)⟩,
      ⟨by constructor <;> decide, fun s hs => List.all_eq_true.mp (hblank' s hs)⟩⟩
  have htext : Text.joinWith "," (entries.map Entry.text) = " b\t=http://b/?x=1,c d=\u2003e\n" := by
    decide
  refine ⟨hproper, htext, ?_⟩
  rw [← htext]
  exact parseList_exact.2.1 entries hproper

end AgentMesh.Peer
