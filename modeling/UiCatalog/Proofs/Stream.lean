import UiCatalog.Http.Router
import UiCatalog.Proofs.Lifecycle

/-!
# The stream of one session

A session reacts to what happens from outside without regard to other sessions. What is read off its stream and
what waits on it is what it was to send: its endpoint and then the replies to the texts posted to it.
-/
namespace UiCatalog

open Rpc

namespace Rpc.Handler

def replies (catalog : Catalog) (h : Handler) (raws : List String) : List Reply :=
  (h.turns catalog raws).filterMap (·.outcome.reply)

@[simp] lemma replies_nil (catalog : Catalog) (h : Handler) : h.replies catalog [] = [] := rfl

lemma replies_cons (catalog : Catalog) (h : Handler) (raw : String) (raws : List String) :
    h.replies catalog (raw :: raws) =
      (h.handle catalog raw).reply.toList ++ (h.handle catalog raw).handler.replies catalog raws := by
  rw [replies, turns, List.filterMap_cons]
  cases (h.handle catalog raw).reply <;> simp [replies]

end Rpc.Handler

/-- Text in ASCII is one byte for each character. -/
lemma Text.Utf8.decodeFrom_ascii {cs : List Char} (h : ∀ c ∈ cs, c.toNat < 0x80) (index : ℕ) :
    decodeFrom 0 index (cs.map fun c => UInt8.ofNat c.toNat) = .ok cs := by
  induction cs generalizing index with
  | nil => rfl
  | cons c cs ih =>
    have hc : c.toNat < 0x80 := h c (.head _)
    have hbyte : (UInt8.ofNat c.toNat).toNat = c.toNat := by
      rw [UInt8.toNat_ofNat']
      omega
    have hfront : ∀ bs, front (UInt8.ofNat c.toNat) bs = .char c 1 := fun bs => by
      rw [front, hbyte, if_pos hc, Char.ofNat_toNat]
    have hrest := ih (fun c' hc' => h c' (.tail _ hc')) (index + 1)
    simp only [List.map_cons, decodeFrom, hfront, Nat.sub_self, hrest, Except.map]

/-- The id and the text of a posted message: exactly one id, which is not empty, and a body that is text and not
too long. -/
def Http.delivery? (query : List Char) (body : List UInt8) : Option (String × String) :=
  match Query.values "sessionId" query, Text.Utf8.text? body with
  | [id], some raw => if id = "" ∨ bodyLimit < body.length then none else some (id, raw)
  | _, _ => none

lemma Http.delivery?_eq_some_iff {query : List Char} {body : List UInt8} {id raw : String} :
    Http.delivery? query body = some (id, raw) ↔
      Http.Query.values "sessionId" query = [id] ∧ id ≠ "" ∧ body.length ≤ bodyLimit ∧
        Text.Utf8.text? body = some raw := by
  simp only [Http.delivery?]
  rcases Http.Query.values "sessionId" query with _ | ⟨id', _ | ⟨_, _⟩⟩
  · simp
  · cases Text.Utf8.text? body with
    | none => simp
    | some raw' => grind
  · simp

/-- The status of a message that is refused; its query is looked at before its body. -/
def Http.refusalStatus (query : List Char) (body : List UInt8) : Nat :=
  if (Query.values "sessionId" query).length ≤ 1 ∧ bodyLimit < body.length then 413 else 400

lemma Http.refusalStatus_ne_202 (query : List Char) (body : List UInt8) :
    Http.refusalStatus query body ≠ 202 := by
  rw [Http.refusalStatus]
  split_ifs <;> decide

inductive SessionAction where
  /-- A stream is opened under a new id. -/
  | opens (id : String)
  | posts (query : List Char) (body : List UInt8)
  /-- Waiting events are read off a stream, up to a limit if there is one. -/
  | reads (id : String) (limit : Option Nat)
  | drops (id : String)
  | closesAll
  deriving DecidableEq

namespace SessionAction

def opened? : SessionAction → Option String
  | opens id => some id
  | _ => none

/-- The action takes the session of an id out of the table. -/
def ends (id : String) : SessionAction → Bool
  | drops other => other == id
  | closesAll => true
  | _ => false

def rawFor? (id : String) : SessionAction → Option String
  | posts query body => ((Http.delivery? query body).filter (·.1 == id)).map (·.2)
  | _ => none

lemma rawFor?_posts_iff {id raw : String} {query : List Char} {body : List UInt8} :
    rawFor? id (posts query body) = some raw ↔ Http.delivery? query body = some (id, raw) := by
  simp only [rawFor?, Option.map_eq_some_iff, Option.filter_eq_some_iff, beq_iff_eq, Prod.exists]
  constructor
  · rintro ⟨_, _, ⟨hd, rfl⟩, rfl⟩
    exact hd
  · intro hd
    exact ⟨id, raw, ⟨hd, rfl⟩, rfl⟩

/-- The texts that are posted to an id as long as its session is not taken out of the table. -/
def rawsFor (id : String) (actions : List SessionAction) : List String :=
  (actions.takeWhile fun a => !a.ends id).filterMap (rawFor? id)

lemma rawsFor_cons (id : String) (a : SessionAction) (later : List SessionAction) :
    rawsFor id (a :: later) = if a.ends id then [] else (a.rawFor? id).toList ++ rawsFor id later := by
  cases he : a.ends id with
  | true => simp [rawsFor, he]
  | false => cases hr : a.rawFor? id <;> simp [rawsFor, he, hr]

/-- The ids that are opened and neither dropped nor closed later, in the order of their opening. -/
def liveIds : List SessionAction → List String
  | [] => []
  | a :: later => (a.opened?.toList.filter fun id => !later.any (ends id)) ++ liveIds later

end SessionAction

def StreamEvent.ofReply (r : Reply) : StreamEvent := .message r.text

namespace Session

def opened (id : String) : Session := { id, pending := [.endpoint (endpointOf id)] }

/-- What one session makes of an action, whatever the other sessions are. -/
def react (catalog : Catalog) (s : Session) (a : SessionAction) : Session :=
  match a with
  | .opens _ => s
  | .posts _ _ =>
    match a.rawFor? s.id with
    | some raw => if s.live then (s.handle catalog raw).1 else s
    | none => s
  | .reads id limit =>
    if s.id = id then { s with pending := s.pending.drop (limit.getD s.pending.length) } else s
  | .drops id => if s.id = id then { s with live := false, reading := false, pending := [] } else s
  | .closesAll => { s with live := false }

def readOff (s : Session) : SessionAction → List StreamEvent
  | .reads id limit => if s.id = id then s.pending.take (limit.getD s.pending.length) else []
  | _ => []

def received (catalog : Catalog) : Session → List SessionAction → List StreamEvent
  | _, [] => []
  | s, a :: rest => s.readOff a ++ received catalog (s.react catalog a) rest

/-- All that can still be read off the stream of a session, which is what waits and what will be replied. -/
def outlook (catalog : Catalog) (s : Session) (actions : List SessionAction) : List StreamEvent :=
  s.pending ++
    if s.live then (s.handler.replies catalog (SessionAction.rawsFor s.id actions)).map .ofReply else []

/-- A session whose stream was dropped has left the table, and nothing waits on its stream. -/
def Sound (s : Session) : Prop := s.reading = false → s.live = false ∧ s.pending = []

variable {catalog : Catalog} {s : Session}

lemma handle_eq (catalog : Catalog) (s : Session) (raw : String) :
    (s.handle catalog raw).1 =
      { s with
        handler := (s.handler.handle catalog raw).handler
        pending := s.pending ++ if s.reading then
          (s.handler.handle catalog raw).reply.toList.map .ofReply else [] } := by
  rw [handle]
  cases hr : (s.handler.handle catalog raw).reply with
  | none => simp
  | some reply => cases s.reading <;> simp [deliver, send, StreamEvent.ofReply]

/-- What a posted message does to a session: nothing, unless it is posted to that session while it is live. -/
lemma react_posts_cases (catalog : Catalog) (s : Session) (query : List Char) (body : List UInt8) :
    (∃ raw, SessionAction.rawFor? s.id (.posts query body) = some raw ∧ s.live = true ∧
      s.react catalog (.posts query body) = (s.handle catalog raw).1) ∨
    ((SessionAction.rawFor? s.id (.posts query body) = none ∨ s.live = false) ∧
      s.react catalog (.posts query body) = s) := by
  simp only [react]
  cases hr : SessionAction.rawFor? s.id (.posts query body) with
  | none => exact .inr ⟨.inl rfl, rfl⟩
  | some raw =>
    cases hl : s.live with
    | false => exact .inr ⟨.inr rfl, by simp⟩
    | true => exact .inl ⟨raw, rfl, rfl, by simp⟩

@[simp] lemma react_id (a : SessionAction) : (s.react catalog a).id = s.id := by
  cases a with
  | opens | closesAll => rfl
  | posts query body =>
    rcases react_posts_cases catalog s query body with ⟨raw, -, -, he⟩ | ⟨-, he⟩ <;> simp [he, handle_eq]
  | reads | drops => simp only [react]; split <;> rfl

lemma react_live (a : SessionAction) : (s.react catalog a).live = (s.live && !a.ends s.id) := by
  cases a with
  | opens | closesAll => simp [react, SessionAction.ends]
  | posts query body =>
    rcases react_posts_cases catalog s query body with ⟨raw, -, -, he⟩ | ⟨-, he⟩ <;>
      simp [he, handle_eq, SessionAction.ends]
  | reads => simp only [react]; split <;> simp [SessionAction.ends]
  | drops id =>
    by_cases hi : id = s.id
    · simp [react, hi, SessionAction.ends]
    · simp [react, hi, Ne.symm hi, SessionAction.ends]

lemma sound_react (catalog : Catalog) (hs : s.Sound) (a : SessionAction) : (s.react catalog a).Sound := by
  intro hr
  cases a with
  | opens => exact hs hr
  | posts query body =>
    rcases react_posts_cases catalog s query body with ⟨raw, -, hl, he⟩ | ⟨-, he⟩
    · simp only [he, handle_eq] at hr
      simp [(hs hr).1] at hl
    · rw [he] at hr ⊢
      exact hs hr
  | reads id limit =>
    simp only [react] at hr ⊢
    split_ifs at hr ⊢
    · exact ⟨(hs hr).1, by simp [(hs hr).2]⟩
    · exact hs hr
  | drops id =>
    simp only [react] at hr ⊢
    split_ifs at hr ⊢
    · exact ⟨rfl, rfl⟩
    · exact hs hr
  | closesAll => exact ⟨rfl, (hs hr).2⟩

/-! ## What a session sends -/

/-- An action other than the end of the stream moves events from what is to come to what was read. -/
lemma outlook_react (hs : s.Sound) {a : SessionAction} (ha : a ≠ .drops s.id) (later : List SessionAction) :
    s.readOff a ++ (s.react catalog a).outlook catalog later = s.outlook catalog (a :: later) := by
  simp only [outlook, SessionAction.rawsFor_cons]
  cases a with
  | opens id =>
    have he : s.react catalog (.opens id) = s := rfl
    simp [he, readOff, SessionAction.ends, SessionAction.rawFor?]
  | posts query body =>
    rcases react_posts_cases catalog s query body with ⟨raw, hr, hl, he⟩ | ⟨hr, he⟩
    · have hreading : s.reading = true := by
        by_contra hn
        simp [(hs (by simpa using hn)).1] at hl
      simp [readOff, he, handle_eq, hl, hreading, hr, SessionAction.ends, Rpc.Handler.replies_cons]
    · rcases hr with hr | hl
      · simp [readOff, he, hr, SessionAction.ends]
      · simp [readOff, he, hl]
  | reads id limit =>
    by_cases hi : s.id = id
    · simp [readOff, react, hi, SessionAction.ends, SessionAction.rawFor?, ← List.append_assoc]
    · simp [readOff, react, hi, SessionAction.ends, SessionAction.rawFor?]
  | drops id =>
    have hi : s.id ≠ id := fun hi => ha (by rw [hi])
    simp [readOff, react, hi, Ne.symm hi, SessionAction.ends, SessionAction.rawFor?]
  | closesAll => simp [readOff, react, SessionAction.ends]

lemma outlook_drops (later : List SessionAction) :
    (s.react catalog (.drops s.id)).outlook catalog later = [] := by
  simp [react, outlook]

/-- What is read off a stream and what waits on it is the start of its outlook, and all of it if the stream is
not dropped. -/
lemma received_outlook (catalog : Catalog) (hs : s.Sound) (actions : List SessionAction) :
    ∃ lost, s.received catalog actions ++ (actions.foldl (react catalog) s).pending ++ lost =
      s.outlook catalog actions ∧ (.drops s.id ∉ actions → lost = []) := by
  induction actions generalizing s with
  | nil => exact ⟨[], by simp [received, outlook, SessionAction.rawsFor]⟩
  | cons a rest ih =>
    obtain ⟨lost, he, hl⟩ := ih (sound_react catalog hs a)
    simp only [received, List.foldl_cons]
    by_cases ha : a = .drops s.id
    · -- the end of the stream: nothing is read any more, so the whole outlook is lost
      subst ha
      rw [outlook_drops, List.append_eq_nil_iff, List.append_eq_nil_iff] at he
      exact ⟨s.outlook catalog (.drops s.id :: rest), by simp [readOff, he.1.1, he.1.2], by simp⟩
    · refine ⟨lost, ?_, fun hm => hl fun hr => hm (by simpa using .inr (react_id a ▸ hr))⟩
      rw [← outlook_react hs ha, ← he]
      simp only [List.append_assoc]

end Session

end UiCatalog
