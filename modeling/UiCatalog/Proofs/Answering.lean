import UiCatalog.Proofs.MessageGrammar
import UiCatalog.Proofs.Stream

/-!
# Replies to messages

Every text but a notification has one reply, and the reply names the request that it answers. A handler is only
changed by a request that has a result or by a notification. A text with an id is answered under it if it can be held
and its method is a text (`id_of_method`).
-/
namespace UiCatalog.Rpc

open Json

/-- The id with which a text has to be answered, if it has to be answered at all. -/
def Message.owed? (raw : String) : Option (Option RequestId) :=
  match parse raw with
  | .ok (.request r) => some (some r.id)
  | .ok (.notification _) => none
  | .error e => some e.id

namespace Handler

variable {catalog : Catalog} {h : Handler} {raw : String}

lemma id?_replyTo (r : Request) (answer : Except Failure Json) : (replyTo r answer).id? = some r.id := by
  cases answer <;> rfl

lemma member?_id (reply : Reply) : reply.toJson.member? "id" = reply.id?.map RequestId.toJson := by
  cases reply with
  | result id value => rfl
  | failure id f => cases id <;> rfl

/-- A request that has no result changes nothing. -/
lemma handler_of_failure {r : Request} {f : Failure} (hf : (h.answer catalog r).2.1 = .error f) :
    (h.answer catalog r).1 = h := by
  rcases answer_cases catalog h r with ⟨-, -, -, hok⟩ | ⟨-, hsame, -⟩
  · rw [hok] at hf
    cases hf
  · exact hsame

lemma reply_of_notification (n : Notification) : (h.handleNotification n).reply = none := by
  rw [handleNotification]
  split_ifs <;> rfl

/-- What a text is answered with has the id that is owed to it. -/
lemma id?_handle (catalog : Catalog) (h : Handler) (raw : String) :
    (h.handle catalog raw).reply.map Reply.id? = Message.owed? raw := by
  rw [Message.owed?]
  cases hm : Message.parse raw with
  | error e => rw [(handle_rejection hm).2]; rfl
  | ok m =>
    cases m with
    | request r => rw [(handle_request hm).2, Option.map_some, id?_replyTo]
    | notification n => rw [handle_notification hm, reply_of_notification]; rfl

/-- A run answers its texts in their order, each with the id that is owed to it. -/
lemma ids_replies (catalog : Catalog) (h : Handler) (raws : List String) :
    (h.replies catalog raws).map Reply.id? = raws.filterMap Message.owed? := by
  induction raws generalizing h with
  | nil => rfl
  | cons raw raws ih =>
    rw [replies_cons, List.map_append, ih, List.filterMap_cons, ← id?_handle catalog h raw]
    cases (h.handle catalog raw).reply <;> rfl

lemma reply_eq_none_iff (catalog : Catalog) (h : Handler) (raw : String) :
    (h.handle catalog raw).reply = none ↔ ∃ n, Message.parse raw = .ok (.notification n) := by
  cases hm : Message.parse raw with
  | error e => simp [(handle_rejection hm).2]
  | ok m =>
    cases m with
    | request r => simp [(handle_request hm).2]
    | notification n => simp [handle_notification hm, reply_of_notification]

lemma handler_of_failure_reply {id : Option RequestId} {f : Failure}
    (hf : (h.handle catalog raw).reply = some (.failure id f)) : (h.handle catalog raw).handler = h := by
  cases hm : Message.parse raw with
  | error e => exact (handle_rejection hm).1
  | ok m =>
    cases m with
    | request r =>
      rw [(handle_request hm).2] at hf
      rw [(handle_request hm).1]
      cases hanswer : (h.answer catalog r).2.1 with
      | ok v =>
        rw [hanswer] at hf
        cases hf
      | error f' => exact handler_of_failure hanswer
    | notification n =>
      rw [handle_notification hm, reply_of_notification] at hf
      cases hf

/-- The id of a request is the one that its text has. -/
lemma exists_written_id {r : Request} (hr : Message.parse raw = .ok (.request r)) :
    ∃ ws, IsText raw (.object ws) ∧ Written.given? "id" ws = some r.id.toJson := by
  have hreadable : ∃ ws, IsText raw (.object ws) ∧ Written.Readable Written.maxDepth (.object ws) := by
    by_contra hno
    rw [Message.parse_error_iff.2 hno] at hr
    cases hr
  obtain ⟨ws, htext, hread⟩ := hreadable
  obtain ⟨-, hid, -⟩ := (Message.parse_request_iff htext hread r).1 hr
  exact ⟨ws, htext, hid.1⟩

/-- Every text but a notification has one reply, with its own id, and failures leave no trace. -/
theorem answers_each (catalog : Catalog) (h : Handler) (raw : String) :
    ((h.handle catalog raw).reply = none ↔ ∃ n, Message.parse raw = .ok (.notification n)) ∧
    (∀ r, Message.parse raw = .ok (.request r) →
      ∃ reply, (h.handle catalog raw).reply = some reply ∧ reply.id? = some r.id ∧
        reply.toJson.member? "id" = some r.id.toJson ∧
        ∃ ws, IsText raw (.object ws) ∧ Written.given? "id" ws = some r.id.toJson) ∧
    (∀ e, Message.parse raw = .error e →
      (h.handle catalog raw).reply = some e.reply ∧ (h.handle catalog raw).handler = h) ∧
    (∀ id f, (h.handle catalog raw).reply = some (.failure id f) → (h.handle catalog raw).handler = h) ∧
    ∀ raws, (h.replies catalog raws).map Reply.id? = raws.filterMap Message.owed? := by
  refine ⟨reply_eq_none_iff catalog h raw, fun r hr => ?_, fun e he => (handle_rejection he).symm,
    fun id f hf => handler_of_failure_reply hf, ids_replies catalog h⟩
  have hid := id?_replyTo r (h.answer catalog r).2.1
  exact ⟨_, (handle_request hr).2, hid, by rw [member?_id, hid]; rfl, exists_written_id hr⟩

/-- A request to initialise without its parameters. -/
def bareInitialize : String := "\x7b\"jsonrpc\":\"2.0\",\"id\":\"b\",\"method\":\"initialize\"\x7d"

set_option maxRecDepth 20000 in
/-- The refused request is named in the reply, and the handler goes on waiting. -/
theorem answers_each_of_bare_initialize :
    Message.parse bareInitialize = .ok (.request ⟨.text "b", "initialize", none⟩) ∧
      (∃ reply, (handle .empty {} bareInitialize).reply = some reply ∧ reply.id? = some (.text "b")) ∧
      (∃ f, (handle .empty {} bareInitialize).reply = some (.failure (some (.text "b")) f)) ∧
      (handle .empty {} bareInitialize).handler = {} := by
  have hr : Message.parse bareInitialize = .ok (.request ⟨.text "b", "initialize", none⟩) := by cbv
  have hf : (handle .empty {} bareInitialize).reply =
      some (.failure (some (.text "b")) (.invalidParams "Missing initialize params")) := by
    rw [(handle_request hr).2]
    rfl
  obtain ⟨-, hanswered, -, hkept, -⟩ := answers_each .empty {} bareInitialize
  obtain ⟨reply, hreply, hid, -⟩ := hanswered _ hr
  exact ⟨hr, ⟨reply, hreply, hid⟩, ⟨_, hf⟩, hkept _ _ hf⟩

/-! ## Texts with an id -/

section Named

variable {ws : List (List Piece × Written)} {id : RequestId} (htext : IsText raw (.object ws))
  (hversion : Message.Versioned ws) (hid : Message.HasId ws id)
include htext hversion hid

lemma owed?_of_method (hread : Written.Readable Written.maxDepth (.object ws))
    (hmethod : ∃ method, Message.HasMethod ws method) : Message.owed? raw = some (some id) := by
  rw [Message.owed?]
  rcases Message.parse_cases htext hread with ⟨r, heq, -, hid', -⟩ | ⟨n, -, -, hnone, -⟩ |
    ⟨id', message, heq, -, hid', -⟩ | ⟨message, -, hnot⟩
  · simp only [heq, hid'.unique hid]
  · exact absurd hnone hid.given
  · simp only [heq, hid'.unique hid]
  · exact absurd ⟨hversion, .inr ⟨id, hid⟩, hmethod⟩ hnot

omit hversion hid in
/-- Without a method, or if it cannot be held, the text is rejected as one of nobody. -/
lemma owed?_of_no_method
    (h : ¬ (Written.Readable Written.maxDepth (.object ws) ∧ ∃ method, Message.HasMethod ws method)) :
    Message.owed? raw = some none := by
  rw [Message.owed?]
  by_cases hread : Written.Readable Written.maxDepth (.object ws)
  · have hnot : ¬ ∃ method, Message.HasMethod ws method := fun hmethod => h ⟨hread, hmethod⟩
    obtain ⟨message, heq⟩ := (Message.parse_unnamed_iff htext hread).2 fun hall => hnot hall.2.2
    rw [heq]
  · have hheld : ¬ ∃ ws', IsText raw (.object ws') ∧ Written.Readable Written.maxDepth (.object ws') := by
      rintro ⟨ws', htext', hread'⟩
      rw [← ofText?_eq_some_iff] at htext htext'
      cases htext.symm.trans htext'
      exact hread hread'
    rw [Message.parse_error_iff.2 hheld]

/-- A text with an id is answered under this id if it can be held and its method is a text, be it an empty one. The
answer to any other is under no id. -/
theorem id_of_method (catalog : Catalog) (h : Handler) :
    ∃ reply, (h.handle catalog raw).reply = some reply ∧
      reply.toJson.member? "id" = reply.id?.map RequestId.toJson ∧
      (reply.id? = some id ↔
        Written.Readable Written.maxDepth (.object ws) ∧ ∃ method, Message.HasMethod ws method) ∧
      (reply.id? = some id ∨ reply.id? = none) := by
  have howed := id?_handle catalog h raw
  by_cases hnamed : Written.Readable Written.maxDepth (.object ws) ∧ ∃ method, Message.HasMethod ws method
  · rw [owed?_of_method htext hversion hid hnamed.1 hnamed.2] at howed
    obtain ⟨reply, hreply, hid?⟩ := Option.map_eq_some_iff.1 howed
    exact ⟨reply, hreply, member?_id reply, by simp [hid?, hnamed], .inl hid?⟩
  · rw [owed?_of_no_method htext hnamed] at howed
    obtain ⟨reply, hreply, hid?⟩ := Option.map_eq_some_iff.1 howed
    exact ⟨reply, hreply, member?_id reply, by simp [hid?, hnamed], .inr hid?⟩

end Named

/-- The members of a message with an id and whatever else. -/
def namedMembers (id : Written) (rest : List (List Piece × Written)) : List (List Piece × Written) :=
  (pieces "jsonrpc", .string (pieces "2.0")) :: (pieces "id", id) :: rest

/-- A message with an empty method. -/
def emptyMethodText : String := "\x7b\"jsonrpc\":\"2.0\",\"id\":\"a\",\"method\":\"\"\x7d"

def emptyMethodMembers : List (List Piece × Written) :=
  namedMembers (.string (pieces "a")) [(pieces "method", .string [])]

set_option maxRecDepth 20000 in
/-- The rejected message is named in the reply. -/
theorem id_of_empty_method :
    IsText emptyMethodText (.object emptyMethodMembers) ∧ Message.Versioned emptyMethodMembers ∧
      Message.HasId emptyMethodMembers (.text "a") ∧ Message.HasMethod emptyMethodMembers "" ∧
      ∃ reply, (handle .empty {} emptyMethodText).reply = some reply ∧ reply.id? = some (.text "a") := by
  have htext : IsText emptyMethodText (.object emptyMethodMembers) := ofText?_eq_some_iff.1 (by cbv)
  have hversion : Message.Versioned emptyMethodMembers := by cbv
  have hid : Message.HasId emptyMethodMembers (.text "a") := ⟨by cbv, trivial⟩
  have hmethod : Message.HasMethod emptyMethodMembers "" := by cbv
  have hread : Written.Readable (126 + 1) (.object emptyMethodMembers) := by
    refine .object (by simp [emptyMethodMembers, namedMembers]) ?_
    simp only [emptyMethodMembers, namedMembers, List.forall_mem_cons]
    exact ⟨.string (by simp), .string (by simp), .string rfl, by simp⟩
  obtain ⟨reply, hreply, -, hnamed, -⟩ := id_of_method htext hversion hid .empty {}
  exact ⟨htext, hversion, hid, hmethod, reply, hreply, hnamed.2 ⟨hread, "", hmethod⟩⟩

/-- A message without a method. -/
def noMethodText : String := "\x7b\"jsonrpc\":\"2.0\",\"id\":\"a\"\x7d"

def noMethodMembers : List (List Piece × Written) := namedMembers (.string (pieces "a")) []

/-- A message of which the method is no text. -/
def nullMethodText : String := "\x7b\"jsonrpc\":\"2.0\",\"id\":\"a\",\"method\":null\x7d"

def nullMethodMembers : List (List Piece × Written) :=
  namedMembers (.string (pieces "a")) [(pieces "method", .null)]

set_option maxRecDepth 20000 in
/-- The ids of both messages are lost. -/
theorem id_lost_without_method :
    (IsText noMethodText (.object noMethodMembers) ∧ Message.Versioned noMethodMembers ∧
      Message.HasId noMethodMembers (.text "a") ∧
      (handle .empty {} noMethodText).reply =
        some (.failure none (.invalidRequest "Invalid request: missing field `method`"))) ∧
    IsText nullMethodText (.object nullMethodMembers) ∧ Message.Versioned nullMethodMembers ∧
      Message.HasId nullMethodMembers (.text "a") ∧
      (handle .empty {} nullMethodText).reply =
        some (.failure none (.invalidRequest "Invalid request: invalid type: null, expected a string")) := by
  refine ⟨⟨ofText?_eq_some_iff.1 (by cbv), by cbv, ⟨by cbv, trivial⟩, ?_⟩, ofText?_eq_some_iff.1 (by cbv), by cbv,
    ⟨by cbv, trivial⟩, ?_⟩
  · have hvalue : Json.parse? noMethodText =
        some (.object [("id", .string "a"), ("jsonrpc", .string "2.0")]) := by cbv
    have hm : Message.parse noMethodText =
        .error ⟨none, .invalidRequest "Invalid request: missing field `method`"⟩ := by
      rw [Message.parse, hvalue]
      rfl
    rw [(handle_rejection hm).2]
    rfl
  · have hvalue : Json.parse? nullMethodText =
        some (.object [("id", .string "a"), ("jsonrpc", .string "2.0"), ("method", .null)]) := by cbv
    have hm : Message.parse nullMethodText =
        .error ⟨none, .invalidRequest "Invalid request: invalid type: null, expected a string"⟩ := by
      rw [Message.parse, hvalue]
      rfl
    rw [(handle_rejection hm).2]
    rfl

end Handler

end UiCatalog.Rpc
