import UiCatalog.Proofs.Answering
import UiCatalog.Proofs.CatalogViews

/-!
# Replies on the event stream

A reply is sent as one event. Its text is one line, whatever texts it holds, so that the events can be told apart
again and every reply read back from its own line.
-/
namespace UiCatalog

open Json Rpc Text

/-! ## Events -/

namespace StreamEvent

/-- What a writer of event streams makes of an event: one line of data for every line of the text. It refuses a
text with a carriage return, which would end a line as well. -/
def written? (e : StreamEvent) : Option (List Char) :=
  if '\r' ∈ e.data.toList then none
  else some ("event: ".toList ++ (e.name.toList ++ '\n' ::
    ((splitAt '\n' e.data.toList).flatMap (fun line => "data: ".toList ++ (line ++ ['\n'])) ++ ['\n'])))

variable {e : StreamEvent}

lemma line_feed_not_mem {t : List Char} (h : ControlFree t) : '\n' ∉ t := fun hmem => absurd (h _ hmem) (by decide)

lemma controlFree_name (e : StreamEvent) : ControlFree e.name.toList := by
  cases e <;> simp [name, ControlFree]

/-- An event whose data has no control characters has one line of data. -/
lemma written?_of_controlFree (h : ControlFree e.data.toList) : e.written? = some e.frame.toList := by
  have hreturn : '\r' ∉ e.data.toList := fun hmem => absurd (h _ hmem) (by decide)
  rw [written?, if_neg hreturn, splitAt_of_not_mem (line_feed_not_mem h)]
  simp [frame]

end StreamEvent

/-- The data of the events whose lines are given, after the lines of data that the first one has had so far. -/
def dataOfLines : List (List Char) → List (List Char) → List String
  | _, [] => []
  | data, [] :: lines =>
    (if data = [] then [] else [String.ofList (join ['\n'] data)]) ++ dataOfLines [] lines
  | data, line :: lines => dataOfLines (data ++ (stripStart? "data: ".toList line).toList) lines

/-- The data of the events of a stream. An event ends with an empty line, and one that has not ended is left out. -/
def readEvents (stream : String) : List String := dataOfLines [] (splitAt '\n' stream.toList)

lemma dataOfLines_frame {e : StreamEvent} (h : ControlFree e.data.toList) (rest : List Char) :
    dataOfLines [] (splitAt '\n' (e.frame.toList ++ rest)) = e.data :: dataOfLines [] (splitAt '\n' rest) := by
  have hname : '\n' ∉ "event: ".toList ++ e.name.toList := by
    rw [List.mem_append, not_or]
    exact ⟨by decide, StreamEvent.line_feed_not_mem e.controlFree_name⟩
  have hdata : '\n' ∉ "data: ".toList ++ e.data.toList := by
    rw [List.mem_append, not_or]
    exact ⟨by decide, StreamEvent.line_feed_not_mem h⟩
  have hframe : e.frame.toList ++ rest = ("event: ".toList ++ e.name.toList) ++ '\n' ::
      (("data: ".toList ++ e.data.toList) ++ '\n' :: ([] ++ '\n' :: rest)) := by
    simp [StreamEvent.frame]
  rw [hframe, splitAt_append, splitAt_append, splitAt_append, splitAt_of_not_mem hname, splitAt_of_not_mem hdata]
  -- the line of the name adds no data, the next one adds its own, and the empty one ends the event
  simp [dataOfLines, splitAt, stripStart?, join]

lemma readEvents_frames {events : List StreamEvent} (h : ∀ e ∈ events, ControlFree e.data.toList) :
    readEvents (frames events) = events.map StreamEvent.data := by
  induction events with
  | nil => rfl
  | cons e events ih =>
    obtain ⟨he, hevents⟩ := List.forall_mem_cons.1 h
    rw [readEvents, frames, List.map_cons, String.join_cons, String.toList_append, dataOfLines_frame he, List.map_cons]
    exact congrArg _ (ih hevents)

/-! ## Replies -/

namespace Rpc

lemma proper_ofInt {i : ℤ} (h : -2 ^ 63 ≤ i ∧ i < 2 ^ 63) : (Json.ofInt i).Proper := by
  have hword : Numeral.wordBound = 2 ^ 64 := rfl
  have hhalf : twoPower 63 = 2 ^ 63 := rfl
  refine .number (Number.Fits.proper ?_)
  split_ifs with hi
  · rw [Number.Fits, hword]
    omega
  · rw [Number.Fits, hhalf]
    omega

lemma RequestId.proper_toJson {id : RequestId} (h : id.InRange) : id.toJson.Proper := by
  cases id with
  | number i => exact proper_ofInt h
  | text s => exact .string s

lemma RequestId.sortKeys_toJson (id : RequestId) : id.toJson.sortKeys = id.toJson := by
  cases id <;> rfl

lemma Failure.proper_toJson (f : Failure) : f.toJson.Proper := by
  have hcode : (Json.ofInt f.code.code).Proper := by
    cases f.code <;> exact proper_ofInt (by decide)
  refine .object ?_
  simp only [List.forall_mem_cons]
  exact ⟨hcode, .string f.message, by simp⟩

lemma Failure.sortKeys_toJson (f : Failure) : f.toJson.sortKeys = f.toJson := by
  have hlt : "code" < "message" := by rw [String.lt_iff_toList_lt]; decide
  exact sortKeys_pair hlt rfl rfl

namespace Reply

def value? : Reply → Option Json
  | result _ value => some value
  | failure _ _ => none

def failure? : Reply → Option Failure
  | result _ _ => none
  | failure _ f => some f

/-- The id is an integer of 64 bits or a text, and the value has numbers that there are and sorted keys. -/
structure WellFormed (r : Reply) : Prop where
  id : ∀ id, r.id? = some id → id.InRange
  proper : ∀ v, r.value? = some v → v.Proper
  sorted : ∀ v, r.value? = some v → v.sortKeys = v

/-- What a value says of the reply that it stands for. -/
structure Told (r : Reply) (w : Json) : Prop where
  version : w.member? "jsonrpc" = some (.string "2.0")
  id : w.member? "id" = r.id?.map RequestId.toJson
  result : w.member? "result" = r.value?
  error : w.member? "error" = r.failure?.map Failure.toJson

variable {r : Reply}

lemma controlFree_text (r : Reply) : ControlFree r.text.toList := by
  rw [text, compact, String.toList_ofList]
  exact controlFree_compactChars r.toJson

lemma proper_toJson (h : r.WellFormed) : r.toJson.Proper := by
  cases r with
  | result id value =>
    refine .object ?_
    simp only [List.forall_mem_cons]
    exact ⟨.string _, RequestId.proper_toJson (h.id id rfl), h.proper value rfl, by simp⟩
  | failure id f =>
    refine .object ?_
    cases id with
    | none =>
      simp only [Option.map_none, Option.toList_none, List.append_nil, List.cons_append, List.nil_append,
        List.forall_mem_cons]
      exact ⟨.string _, f.proper_toJson, by simp⟩
    | some id =>
      simp only [Option.map_some, Option.toList_some, List.cons_append, List.nil_append, List.forall_mem_cons]
      exact ⟨.string _, RequestId.proper_toJson (h.id id rfl), f.proper_toJson, by simp⟩

lemma told_sortKeys (h : r.WellFormed) : r.Told r.toJson.sortKeys := by
  have hlookup (key : String) : r.toJson.sortKeys.member? key = (r.toJson.member? key).map sortKeys := by
    cases r with
    | result id value => exact member?_sortKeys (by simp) key
    | failure id f => cases id <;> exact member?_sortKeys (by simp) key
  have hversion : r.toJson.member? "jsonrpc" = some (.string "2.0") := by
    cases r <;> rfl
  have hresult : r.toJson.member? "result" = r.value? := by
    cases r with
    | result id value => rfl
    | failure id f => cases id <;> rfl
  have herror : r.toJson.member? "error" = r.failure?.map Failure.toJson := by
    cases r with
    | result id value => rfl
    | failure id f => cases id <;> rfl
  refine ⟨?_, ?_, ?_, ?_⟩
  · rw [hlookup, hversion]
    rfl
  · rw [hlookup, Handler.member?_id, Option.map_map]
    exact Option.map_congr fun id _ => id.sortKeys_toJson
  · rw [hlookup, hresult]
    exact (Option.map_congr fun v hv => h.sorted v hv).trans Option.map_id'
  · rw [hlookup, herror, Option.map_map]
    exact Option.map_congr fun f _ => f.sortKeys_toJson

end Reply

/-! ## Replies of a handler -/

namespace Handler

variable {catalog : Catalog} {h : Handler} {raw : String} {r : Request} {v : Json}

lemma inRange_of_owed {id : RequestId} (howed : Message.owed? raw = some (some id)) : id.InRange := by
  rw [Message.owed?] at howed
  by_cases hread : ∃ ws, IsText raw (.object ws) ∧ Written.Readable Written.maxDepth (.object ws)
  · obtain ⟨ws, htext, hread⟩ := hread
    rcases Message.parse_cases htext hread with ⟨r, hr, -, hid, -⟩ | ⟨n, hn, -⟩ | ⟨id', message, he, -, hid, -⟩ |
      ⟨message, he, -⟩
    · rw [hr, Option.some.injEq, Option.some.injEq] at howed
      exact howed ▸ hid.2
    · rw [hn] at howed
      cases howed
    · rw [he, Option.some.injEq, Option.some.injEq] at howed
      exact howed ▸ hid.2
    · rw [he] at howed
      cases howed
  · rw [Message.parse_error_iff.2 hread] at howed
    cases howed

lemma fits_definitions : (Json.array (Tool.definitions.map Tool.Definition.toJson)).Fits := by
  simp [Tool.definitions, Tool.Definition.toJson, Tool.objectSchema, Tool.nameSchema, Tool.textSchema,
    Tool.snippetSchema, Tool.attributesSchema, Json.strings, Fits, ItemsFit, MembersFit]

lemma fits_result (result : Tool.Result) : result.toJson.Fits := by
  rw [Tool.Result.toJson]
  split_ifs <;> simp [Fits, ItemsFit, MembersFit]

/-- What a running handler answers has integers for numbers and its keys sorted. -/
lemma runningAnswer_result (hok : (runningAnswer catalog r).1 = .ok v) : ∃ w : Json, w.Fits ∧ v = w.sortKeys := by
  unfold runningAnswer at hok
  split at hok
  · cases hok
    exact ⟨_, by simpa [Fits, MembersFit] using fits_definitions, rfl⟩
  · split at hok
    · cases hok
    · cases hok
      exact ⟨_, fits_result _, rfl⟩
  · cases hok
    exact ⟨_, by simp [Resource.definitionsJson, Fits, ItemsFit, MembersFit], rfl⟩
  · cases hok
    exact ⟨_, by simp [Resource.templatesJson, Fits, ItemsFit, MembersFit], rfl⟩
  · split at hok
    · cases hok
    · dsimp only at hok
      split at hok
      · cases hok
      · cases hok
        exact ⟨_, by simp [Resource.toJson, Fits, ItemsFit, MembersFit], rfl⟩
  · cases hok

lemma answer_result (hok : (h.answer catalog r).2.1 = .ok v) : ∃ w : Json, w.Fits ∧ v = w.sortKeys := by
  unfold answer at hok
  split_ifs at hok
  · split at hok
    · cases hok
    · cases hok
      exact ⟨_, by simp [Fits, MembersFit], rfl⟩
  · cases hok
    exact ⟨.object [], by simp [Fits, MembersFit], rfl⟩
  · exact runningAnswer_result hok

lemma answer_of_result {id : RequestId} (hreply : (h.handle catalog raw).reply = some (.result id v)) :
    ∃ r, Message.parse raw = .ok (.request r) ∧ (h.answer catalog r).2.1 = .ok v := by
  cases hm : Message.parse raw with
  | error e =>
    rw [(handle_rejection hm).2] at hreply
    cases hreply
  | ok m =>
    cases m with
    | notification n =>
      rw [handle_notification hm, reply_of_notification] at hreply
      cases hreply
    | request r =>
      rw [(handle_request hm).2, Option.some.injEq] at hreply
      refine ⟨r, rfl, ?_⟩
      cases hanswer : (h.answer catalog r).2.1 with
      | error f =>
        rw [hanswer] at hreply
        cases hreply
      | ok v' =>
        rw [hanswer] at hreply
        cases hreply
        rfl

lemma wellFormed_handle {reply : Reply} (hreply : (h.handle catalog raw).reply = some reply) : reply.WellFormed := by
  have howed : Message.owed? raw = some reply.id? := by rw [← id?_handle catalog h raw, hreply, Option.map_some]
  have hvalue (v : Json) (hv : reply.value? = some v) : ∃ w : Json, w.Fits ∧ v = w.sortKeys := by
    cases reply with
    | failure id f => cases hv
    | result id v' =>
      cases hv
      obtain ⟨r, -, hanswer⟩ := answer_of_result hreply
      exact answer_result hanswer
  refine ⟨fun id hid => inRange_of_owed (howed.trans (congrArg some hid)), fun v hv => ?_, fun v hv => ?_⟩
  · obtain ⟨w, hw, rfl⟩ := hvalue v hv
    exact (fits_sortKeys hw).proper
  · obtain ⟨w, -, rfl⟩ := hvalue v hv
    exact sortKeys_sortKeys w

lemma wellFormed_replies {raws : List String} {reply : Reply} (hreply : reply ∈ h.replies catalog raws) :
    reply.WellFormed := by
  obtain ⟨turn, hturn, hreply⟩ := List.mem_filterMap.1 hreply
  rw [outcome_of_mem_turns hturn] at hreply
  exact wellFormed_handle hreply

end Handler

namespace Reply

/-- Replies survive the event stream: every text is one line of data, the events give the texts again, and each text
means what its reply tells. The replies of a handler are all of this kind. -/
theorem read_back (rs : List Reply) :
    (∀ r ∈ rs, ∀ c ∈ r.text.toList, 0x20 ≤ c.toNat) ∧
    (∀ r ∈ rs, (StreamEvent.ofReply r).written? = some (StreamEvent.ofReply r).frame.toList) ∧
    readEvents (frames (rs.map .ofReply)) = rs.map text ∧
    (∀ r ∈ rs, r.WellFormed → ∃ w, meaningOf? r.text = some w ∧ r.Told w ∧
      (r.toJson.Fits → r.toJson.depth ≤ Written.maxDepth → Json.parse? r.text = some w)) ∧
    ∀ catalog (h : Handler) raws, ∀ r ∈ h.replies catalog raws, r.WellFormed := by
  have hfree : ∀ e ∈ rs.map StreamEvent.ofReply, ControlFree e.data.toList := by
    rw [List.forall_mem_map]
    exact fun r _ => r.controlFree_text
  refine ⟨fun r _ => r.controlFree_text, fun r hr => ?_, ?_, fun r _ h => ?_, fun _ _ _ _ => Handler.wellFormed_replies⟩
  · exact StreamEvent.written?_of_controlFree (hfree _ (List.mem_map_of_mem hr))
  · rw [readEvents_frames hfree, List.map_map]
    rfl
  · have hproper := proper_toJson h
    refine ⟨_, meaningOf?_compact hproper, told_sortKeys h, fun hfits hdepth => ?_⟩
    rw [Json.parse?, text, ofText?_compact hproper]
    exact valueWithin?_tree hfits hdepth

/-- A result with the least positive number and texts of several lines. -/
def manyLines : Reply :=
  .result (.text "a\r\nb")
    (.object [("data: \n\n", .number (.float ⟨false, 1, -1074⟩)), ("line", .string "\u2028\"\r")])

lemma wellFormed_manyLines : manyLines.WellFormed where
  id id hid := by
    cases hid
    trivial
  proper v hv := by
    cases hv
    refine .object ?_
    simp only [List.forall_mem_cons]
    exact ⟨.number ⟨by decide, by decide, by decide, .inr rfl⟩, .string _, by simp⟩
  sorted v hv := by
    cases hv
    have hlt : "data: \n\n" < "line" := by rw [String.lt_iff_toList_lt]; decide
    exact sortKeys_pair hlt rfl rfl

theorem read_back_of_many_lines : manyLines.WellFormed ∧
    readEvents (frames [.ofReply manyLines, .ofReply manyLines]) = [manyLines.text, manyLines.text] ∧
    ∃ w, meaningOf? manyLines.text = some w ∧ w.member? "id" = some (.string "a\r\nb") ∧
      w.member? "result" = manyLines.value? := by
  obtain ⟨-, -, hread, htold, -⟩ := read_back [manyLines, manyLines]
  obtain ⟨w, hmeaning, hw, -⟩ := htold manyLines (by simp) wellFormed_manyLines
  exact ⟨wellFormed_manyLines, hread, w, hmeaning, hw.id, hw.result⟩

end Reply

end Rpc

end UiCatalog
