import Mathlib.Data.List.Nodup
import UiCatalog.Proofs.Stream

/-!
# Sessions under every interleaving

Clients open streams, post, read and leave in any order, and the server may close all sessions. Every session
of the table reacts to each of these actions by itself, so its stream is that of a session alone.
-/
namespace UiCatalog

open Rpc

namespace SessionTable

def step (catalog : Catalog) (t : SessionTable) : SessionAction → SessionTable
  | .opens id => (t.opening id).1
  | .posts query body => (Http.postMessage catalog t query body).2.1
  | .reads id limit => (t.take id limit).1
  | .drops id => (t.dropStream id).1
  | .closesAll => t.closeAll.1

def readOff (t : SessionTable) (id : String) : SessionAction → List StreamEvent
  | .reads other limit => if other = id then (t.take id limit).2 else []
  | _ => []

def run (catalog : Catalog) (t : SessionTable) (actions : List SessionAction) : SessionTable :=
  actions.foldl (step catalog) t

/-- The events that a run of actions reads off the stream of an id. -/
def received (catalog : Catalog) (id : String) : SessionTable → List SessionAction → List StreamEvent
  | _, [] => []
  | t, a :: rest => t.readOff id a ++ received catalog id (t.step catalog a) rest

def waiting (t : SessionTable) (id : String) : List StreamEvent := ((t.session? id).map (·.pending)).getD []

/-- No id is used twice, and every session is sound. -/
structure WellFormed (t : SessionTable) : Prop where
  distinct : (t.sessions.map Session.id).Nodup
  sound : ∀ s ∈ t.sessions, s.Sound

def liveIds (t : SessionTable) : List String := (t.sessions.filter (·.live)).map (·.id)

variable {catalog : Catalog} {t : SessionTable}

/-! ## Sessions by their ids -/

lemma size_eq (t : SessionTable) : t.size = t.liveIds.length := by simp [size, liveIds]

lemma mem_of_session? {id : String} {s : Session} (h : t.session? id = some s) :
    s ∈ t.sessions ∧ s.id = id :=
  ⟨List.mem_of_find?_eq_some h, by simpa using List.find?_some h⟩

lemma session?_eq_none_iff {id : String} : t.session? id = none ↔ ∀ s ∈ t.sessions, s.id ≠ id := by
  simp [session?]

lemma eq_of_id_eq (ht : t.WellFormed) {s s' : Session} (hs : s ∈ t.sessions) (hs' : s' ∈ t.sessions)
    (hi : s.id = s'.id) : s = s' :=
  List.inj_on_of_nodup_map ht.distinct hs hs' hi

lemma session?_of_mem (ht : t.WellFormed) {s : Session} (hs : s ∈ t.sessions) : t.session? s.id = some s := by
  cases hf : t.session? s.id with
  | none => exact absurd rfl (session?_eq_none_iff.mp hf s hs)
  | some s' =>
    obtain ⟨hm, hi⟩ := mem_of_session? hf
    rw [eq_of_id_eq ht hm hs hi]

lemma live?_isSome_iff (ht : t.WellFormed) (id : String) : (t.live? id).isSome ↔ id ∈ t.liveIds := by
  simp only [live?, liveIds, List.mem_map, List.mem_filter]
  constructor
  · intro h
    obtain ⟨s, hs⟩ := Option.isSome_iff_exists.mp h
    obtain ⟨hf, hl⟩ := Option.filter_eq_some_iff.mp hs
    obtain ⟨hm, hi⟩ := mem_of_session? hf
    exact ⟨s, ⟨hm, hl⟩, hi⟩
  · rintro ⟨s, ⟨hm, hl⟩, rfl⟩
    simp [session?_of_mem ht hm, Option.filter, hl]

/-! ## One action -/

lemma postMessage_of_long {query : List Char} {body : List UInt8}
    (hq : (Http.Query.values "sessionId" query).length ≤ 1) (hb : Http.bodyLimit < body.length) :
    Http.postMessage catalog t query body =
      (Http.textResponse 413 "Failed to buffer the request body: length limit exceeded", t, []) := by
  rw [Http.postMessage]
  rcases hv : Http.Query.values "sessionId" query with _ | ⟨id, _ | ⟨_, _⟩⟩
  · exact if_pos hb
  · exact if_pos hb
  · simp [hv] at hq

/-- A posted message is accepted and handled, or it is refused and changes nothing. -/
lemma postMessage_cases (catalog : Catalog) (t : SessionTable) (query : List Char) (body : List UInt8) :
    (∃ id raw, Http.delivery? query body = some (id, raw) ∧ (t.live? id).isSome ∧
      (Http.postMessage catalog t query body).1.status = 202 ∧
      (Http.postMessage catalog t query body).2.1 = (t.handle catalog id raw).1) ∨
    ((∀ id raw, Http.delivery? query body = some (id, raw) → (t.live? id).isNone) ∧
      (Http.postMessage catalog t query body).1.status = Http.refusalStatus query body ∧
      (Http.postMessage catalog t query body).2.1 = t) := by
  by_cases hlong : (Http.Query.values "sessionId" query).length ≤ 1 ∧ Http.bodyLimit < body.length
  · rw [postMessage_of_long hlong.1 hlong.2, Http.refusalStatus, if_pos hlong]
    refine .inr ⟨fun id raw hd => ?_, rfl, rfl⟩
    have hshort := (Http.delivery?_eq_some_iff.mp hd).2.2.1
    omega
  rw [Http.refusalStatus, if_neg hlong]
  simp only [Http.postMessage, Http.delivery?, Text.Utf8.text?]
  rcases hv : Http.Query.values "sessionId" query with _ | ⟨id, _ | ⟨_, _⟩⟩
  · have hb : ¬Http.bodyLimit < body.length := fun hb => hlong ⟨by simp [hv], hb⟩
    simp only [hb, if_false]
    cases Text.Utf8.decode body <;> exact .inr ⟨by simp, rfl, rfl⟩
  · have hb : ¬Http.bodyLimit < body.length := fun hb => hlong ⟨by simp [hv], hb⟩
    simp only [hb, if_false]
    cases Text.Utf8.decode body with
    | error e => exact .inr ⟨by simp [Except.toOption], rfl, rfl⟩
    | ok chars =>
      by_cases hi : id = ""
      · refine .inr ⟨by simp [hi, Except.toOption], ?_, by simp [hi]⟩
        simp [hi, Http.errorResponse, Http.jsonResponse]
      · cases hl : t.live? id with
        | none =>
          refine .inr ⟨by simp [hi, Except.toOption, hl], ?_, by simp [hi, hl]⟩
          simp [hi, hl, Http.errorResponse, Http.jsonResponse]
        | some s =>
          refine .inl ⟨id, String.ofList chars, by simp [hi, Except.toOption], by simp [hl], ?_, ?_⟩
          · simp [hi, hl, Http.textResponse]
          · simp [hi, hl]
  · exact .inr ⟨by simp, rfl, rfl⟩

lemma map_react_eq_self {a : SessionAction} (h : ∀ s ∈ t.sessions, s.react catalog a = s) :
    t.sessions.map (·.react catalog a) = t.sessions :=
  (List.map_congr_left h).trans (List.map_id _)

/-- A message that is handled is one to which just the session that it names reacts. -/
lemma sessions_handle (ht : t.WellFormed) {query : List Char} {body : List UInt8} {id raw : String}
    (hd : Http.delivery? query body = some (id, raw)) (hl : (t.live? id).isSome) :
    (t.handle catalog id raw).1.sessions = t.sessions.map (·.react catalog (.posts query body)) := by
  obtain ⟨s, hs⟩ := Option.isSome_iff_exists.mp hl
  obtain ⟨hf, hlive⟩ := Option.filter_eq_some_iff.mp hs
  obtain ⟨hm, rfl⟩ := mem_of_session? hf
  simp only [handle, hf, update]
  refine List.map_congr_left fun s' hs' => ?_
  by_cases hi : s'.id = s.id
  · have hsame : s' = s := eq_of_id_eq ht hs' hm hi
    have hr := SessionAction.rawFor?_posts_iff.mpr hd
    simp [hsame, Session.react, hr, hlive]
  · have hr : SessionAction.rawFor? s'.id (.posts query body) = none := by
      by_contra hn
      obtain ⟨raw', hr⟩ := Option.ne_none_iff_exists'.mp hn
      have hd' := SessionAction.rawFor?_posts_iff.mp hr
      exact hi (by simp_all)
    simp [hi, Session.react, hr]

/-- No session reacts to a message that names none, or one that is not live. -/
lemma map_react_of_refused (ht : t.WellFormed) {query : List Char} {body : List UInt8}
    (hn : ∀ id raw, Http.delivery? query body = some (id, raw) → (t.live? id).isNone) :
    t.sessions.map (·.react catalog (.posts query body)) = t.sessions := by
  refine map_react_eq_self fun s hs => ?_
  rcases Session.react_posts_cases catalog s query body with ⟨raw, hr, hl, -⟩ | ⟨-, hs'⟩
  · have hgone := hn _ _ (SessionAction.rawFor?_posts_iff.mp hr)
    simp [live?, session?_of_mem ht hs, hl, Option.filter] at hgone
  · exact hs'

/-- A stream that is dropped once more is already empty and out of the table, as its session is sound. -/
lemma map_react_of_dropped (ht : t.WellFormed) {s : Session} (hm : s ∈ t.sessions) (hr : s.reading = false) :
    t.sessions.map (·.react catalog (.drops s.id)) = t.sessions := by
  refine map_react_eq_self fun s' hs' => ?_
  by_cases hi : s'.id = s.id
  · obtain rfl := eq_of_id_eq ht hs' hm hi
    obtain ⟨hl, hp⟩ := ht.sound s' hs' hr
    obtain ⟨id, handler, live, held, reading, pending⟩ := s'
    simp_all [Session.react]
  · simp [Session.react, hi]

lemma sessions_dropStream (ht : t.WellFormed) (id : String) :
    (t.dropStream id).1.sessions = t.sessions.map (·.react catalog (.drops id)) := by
  cases hf : t.session? id with
  | none =>
    have hself : t.sessions.map (·.react catalog (.drops id)) = t.sessions :=
      map_react_eq_self fun s hs => by simp [Session.react, session?_eq_none_iff.mp hf s hs]
    simp [dropStream, hf, hself]
  | some s =>
    obtain ⟨hm, rfl⟩ := mem_of_session? hf
    cases hr : s.reading with
    | true => simp [dropStream, hf, hr, update, Session.react]
    | false => simp [dropStream, hf, hr, map_react_of_dropped ht hm hr]

/-- Every session reacts by itself, and an opened one is added at the end. -/
lemma sessions_step (ht : t.WellFormed) (a : SessionAction) :
    (t.step catalog a).sessions =
      t.sessions.map (·.react catalog a) ++ a.opened?.toList.map .opened := by
  cases a with
  | opens id => simp [step, opening, Session.react, SessionAction.opened?, Session.opened]
  | posts query body =>
    simp only [step, SessionAction.opened?, Option.toList_none, List.map_nil, List.append_nil]
    rcases postMessage_cases catalog t query body with ⟨id, raw, hd, hl, -, he⟩ | ⟨hn, -, he⟩
    · rw [he, sessions_handle ht hd hl]
    · rw [he, map_react_of_refused ht hn]
  | reads id limit => simp [step, take, update, Session.react, SessionAction.opened?]
  | drops id =>
    simp only [step, SessionAction.opened?, Option.toList_none, List.map_nil, List.append_nil]
    exact sessions_dropStream ht id
  | closesAll => simp [step, closeAll, Session.react, SessionAction.opened?]

lemma ids_step (ht : t.WellFormed) (a : SessionAction) :
    (t.step catalog a).sessions.map Session.id = t.sessions.map Session.id ++ a.opened?.toList := by
  simp [sessions_step ht, Session.opened, Function.comp_def]

/-- The ids that are opened by a run are new and different from each other. -/
def Fresh (t : SessionTable) (actions : List SessionAction) : Prop :=
  (t.sessions.map Session.id ++ actions.filterMap SessionAction.opened?).Nodup

lemma fresh_step (ht : t.WellFormed) {a : SessionAction} {rest : List SessionAction}
    (hf : t.Fresh (a :: rest)) : (t.step catalog a).Fresh rest := by
  rw [Fresh, ids_step ht, List.append_assoc]
  rw [Fresh, List.filterMap_cons] at hf
  cases ha : a.opened? <;> simpa [ha] using hf

lemma wellFormed_step (ht : t.WellFormed) {a : SessionAction} {rest : List SessionAction}
    (hf : t.Fresh (a :: rest)) : (t.step catalog a).WellFormed where
  distinct := (List.nodup_append.mp (fresh_step ht hf)).1
  sound := by
    rw [sessions_step ht]
    intro s hs
    rcases List.mem_append.mp hs with hs | hs
    · obtain ⟨s', hm, rfl⟩ := List.mem_map.mp hs
      exact Session.sound_react catalog (ht.sound s' hm) a
    · obtain ⟨id, -, rfl⟩ := List.mem_map.mp hs
      exact fun hr => absurd hr (by simp [Session.opened])

lemma wellFormed_empty : empty.WellFormed := ⟨.nil, by simp [empty]⟩

lemma readOff_of_mem (ht : t.WellFormed) {s : Session} (hs : s ∈ t.sessions) (a : SessionAction) :
    t.readOff s.id a = s.readOff a := by
  cases a with
  | reads id limit =>
    by_cases hi : id = s.id
    · simp [readOff, Session.readOff, take, hi, session?_of_mem ht hs]
    · simp [readOff, Session.readOff, hi, Ne.symm hi]
  | _ => rfl

/-! ## Runs -/

lemma run_append (actions more : List SessionAction) :
    t.run catalog (actions ++ more) = (t.run catalog actions).run catalog more :=
  List.foldl_append

lemma received_append (id : String) (actions more : List SessionAction) :
    received catalog id t (actions ++ more) =
      received catalog id t actions ++ received catalog id (t.run catalog actions) more := by
  induction actions generalizing t with
  | nil => rfl
  | cons a rest ih =>
    simp only [List.cons_append, received, ih, List.append_assoc]
    rfl

lemma received_posts_of_refused {query : List Char} {body : List UInt8}
    (h : (Http.postMessage catalog t query body).2.1 = t) (id : String) (later : List SessionAction) :
    received catalog id t (.posts query body :: later) = received catalog id t later := by
  rw [received, step, h]
  rfl

lemma run_spec (ht : t.WellFormed) {actions more : List SessionAction} (hf : t.Fresh (actions ++ more)) :
    (t.run catalog actions).WellFormed ∧ (t.run catalog actions).Fresh more := by
  induction actions generalizing t with
  | nil => exact ⟨ht, hf⟩
  | cons a rest ih => exact ih (wellFormed_step ht hf) (fresh_step ht hf)

/-- In a run every session of the table goes its own way. -/
lemma session_run (ht : t.WellFormed) {actions : List SessionAction} (hf : t.Fresh actions) {s : Session}
    (hs : s ∈ t.sessions) :
    (t.run catalog actions).session? s.id = some (actions.foldl (Session.react catalog) s) ∧
      received catalog s.id t actions = s.received catalog actions := by
  induction actions generalizing t s with
  | nil => exact ⟨session?_of_mem ht hs, rfl⟩
  | cons a rest ih =>
    have hm : s.react catalog a ∈ (t.step catalog a).sessions := by
      rw [sessions_step ht]
      exact List.mem_append_left _ (List.mem_map_of_mem hs)
    obtain ⟨hrun, hreceived⟩ := ih (wellFormed_step ht hf) (fresh_step ht hf) hm
    rw [Session.react_id] at hrun hreceived
    exact ⟨hrun, by rw [received, Session.received, hreceived, readOff_of_mem ht hs]⟩

/-- Nothing is read off a stream before it is opened. -/
lemma received_eq_nil (ht : t.WellFormed) {actions : List SessionAction} (hf : t.Fresh actions) {id : String}
    (hn : id ∉ t.sessions.map Session.id ++ actions.filterMap SessionAction.opened?) :
    received catalog id t actions = [] := by
  induction actions generalizing t with
  | nil => rfl
  | cons a rest ih =>
    have hnone : t.session? id = none := by
      refine session?_eq_none_iff.mpr fun s hs hi => hn (List.mem_append_left _ ?_)
      exact List.mem_map.mpr ⟨s, hs, hi⟩
    have hread : t.readOff id a = [] := by
      cases a <;> simp [readOff, take, hnone]
    rw [received, hread, List.nil_append]
    refine ih (wellFormed_step ht hf) (fresh_step ht hf) ?_
    rw [ids_step ht, List.append_assoc]
    cases ha : a.opened? <;> simpa [ha] using hn

lemma liveIds_step (ht : t.WellFormed) (a : SessionAction) :
    (t.step catalog a).liveIds = (t.liveIds.filter fun id => !a.ends id) ++ a.opened?.toList := by
  have hopened : ((a.opened?.toList.map Session.opened).filter (·.live)).map Session.id = a.opened?.toList := by
    cases a.opened? <;> rfl
  rw [liveIds, sessions_step ht, List.filter_append, List.map_append, hopened, liveIds]
  congr 1
  simp only [List.filter_map, List.map_map, Function.comp_def, Session.react_live, Session.react_id,
    List.filter_filter, Bool.and_comm]

lemma liveIds_run (ht : t.WellFormed) {actions : List SessionAction} (hf : t.Fresh actions) :
    (t.run catalog actions).liveIds =
      (t.liveIds.filter fun id => !actions.any (·.ends id)) ++ SessionAction.liveIds actions := by
  induction actions generalizing t with
  | nil => simp [run, SessionAction.liveIds]
  | cons a rest ih =>
    have hstep : ((t.step catalog a).run catalog rest).liveIds = _ :=
      ih (wellFormed_step ht hf) (fresh_step ht hf)
    rw [liveIds_step ht] at hstep
    refine hstep.trans ?_
    simp [SessionAction.liveIds, List.filter_filter, Bool.and_comm]

lemma session?_update (id : String) (change : Session → Session) (hc : ∀ s, (change s).id = s.id)
    (other : String) :
    (t.update id change).session? other =
      (t.session? other).map fun s => if s.id = id then change s else s := by
  have hid : ∀ s : Session, (if s.id = id then change s else s).id = s.id := fun s => by split <;> simp [hc]
  simp only [update, session?, List.find?_map, Function.comp_def, hid]

/-- Dropping a stream takes its session out of the table and leaves all others as they are. -/
lemma live?_dropStream (ht : t.WellFormed) (id other : String) :
    (t.dropStream id).1.live? other = if other = id then none else t.live? other := by
  rw [dropStream]
  cases hf : t.session? id with
  | none => split_ifs with hi <;> simp_all [live?]
  | some s =>
    obtain ⟨hm, rfl⟩ := mem_of_session? hf
    cases hr : s.reading with
    | false =>
      have hl := (ht.sound s hm hr).1
      split_ifs with hi <;> simp_all [live?, Option.filter]
    | true =>
      have hu := session?_update (t := t) s.id
        (fun s => { s with live := false, reading := false, pending := [] }) (fun _ => rfl) other
      simp only [hr, Bool.not_true, Bool.false_eq_true, if_false, live?, hu]
      cases ho : t.session? other with
      | none => simp
      | some s' =>
        obtain ⟨-, rfl⟩ := mem_of_session? ho
        split_ifs with hi <;> simp [Option.filter, hi]

/-- The stream of a session carries its endpoint and then what a handler of its own replies. -/
lemma stream_of_opens {before later : List SessionAction} {id : String}
    (hfresh : ((before ++ .opens id :: later).filterMap SessionAction.opened?).Nodup) :
    ∃ lost, received catalog id empty (before ++ .opens id :: later) ++
        (run catalog empty (before ++ .opens id :: later)).waiting id ++ lost =
          .endpoint (Session.endpointOf id) ::
            (Handler.replies catalog {} (SessionAction.rawsFor id later)).map .ofReply ∧
      (.drops id ∉ later → lost = []) := by
  have hf : empty.Fresh (before ++ .opens id :: later) := by simpa [Fresh, empty] using hfresh
  have hparts : (before.filterMap SessionAction.opened?).Nodup ∧
      id ∉ before.filterMap SessionAction.opened? := by
    rw [List.filterMap_append, List.nodup_append] at hfresh
    exact ⟨hfresh.1, fun hm => hfresh.2.2 id hm id (by simp [SessionAction.opened?]) rfl⟩
  have hnil : received catalog id empty before = [] :=
    received_eq_nil wellFormed_empty (by simpa [Fresh, empty] using hparts.1)
      (by simpa [empty] using hparts.2)
  let u := (run catalog empty before).step catalog (.opens id)
  have hu : (run catalog empty before).WellFormed ∧ (run catalog empty before).Fresh (.opens id :: later) :=
    run_spec wellFormed_empty hf
  have hm : Session.opened id ∈ u.sessions := by
    rw [sessions_step hu.1]
    exact List.mem_append_right _ (by simp [SessionAction.opened?])
  have hown : (u.run catalog later).session? id = _ ∧ received catalog id u later = _ :=
    session_run (wellFormed_step hu.1 hu.2) (fresh_step hu.1 hu.2) hm
  have hreceived : received catalog id empty (before ++ .opens id :: later) =
      (Session.opened id).received catalog later := by
    rw [received_append, hnil, List.nil_append, received]
    exact hown.2
  have hwaiting : (run catalog empty (before ++ .opens id :: later)).waiting id =
      (later.foldl (Session.react catalog) (.opened id)).pending := by
    have hlast : run catalog empty (before ++ .opens id :: later) = u.run catalog later :=
      run_append before (.opens id :: later)
    rw [waiting, hlast, hown.1]
    rfl
  rw [hreceived, hwaiting]
  exact Session.received_outlook catalog (fun hr => absurd hr (by simp [Session.opened])) later

/-- Whatever the order of the actions, a stream carries its endpoint and then what a handler of its own replies
to the texts posted to it, none too long, while it was in the table; posts that name no such session or that are
too long change nothing, dropping a stream removes its session only, and the table holds the sessions that were
neither dropped nor closed. -/
theorem interleaving (catalog : Catalog) (actions : List SessionAction)
    (hfresh : (actions.filterMap SessionAction.opened?).Nodup) :
    let t := run catalog empty actions
    (∀ before id later, actions = before ++ .opens id :: later →
      let sent := .endpoint (Session.endpointOf id) ::
        (Handler.replies catalog {} (SessionAction.rawsFor id later)).map .ofReply
      received catalog id empty actions <+: sent ∧
      (.drops id ∉ later → received catalog id empty actions ++ t.waiting id = sent)) ∧
    (∀ query body raw, Text.Utf8.text? body = some raw →
      let posted := Http.postMessage catalog t query body
      (posted.1.status = 202 ↔ body.length ≤ Http.bodyLimit ∧
        ∃ id, Http.Query.values "sessionId" query = [id] ∧ id ≠ "" ∧ id ∈ SessionAction.liveIds actions) ∧
      (posted.1.status ≠ 202 → posted.1.status = Http.refusalStatus query body ∧ posted.2.1 = t)) ∧
    (∀ id other, (t.dropStream id).1.live? other = if other = id then none else t.live? other) ∧
    t.size = (SessionAction.liveIds actions).length := by
  intro t
  have hf : empty.Fresh actions := by simpa [Fresh, empty] using hfresh
  have hrun : t.WellFormed ∧ t.Fresh [] := run_spec wellFormed_empty (by simpa using hf)
  have hlive : t.liveIds = _ := liveIds_run wellFormed_empty hf
  rw [show empty.liveIds = [] from rfl, List.filter_nil, List.nil_append] at hlive
  refine ⟨?_, ?_, live?_dropStream hrun.1, by rw [size_eq, hlive]⟩
  · rintro before id later rfl sent
    obtain ⟨lost, hsent, hlost⟩ : ∃ lost, _ ++ t.waiting id ++ lost = sent ∧ _ := stream_of_opens hfresh
    refine ⟨⟨t.waiting id ++ lost, by rw [← hsent, List.append_assoc]⟩, fun hd => ?_⟩
    rw [← hsent, hlost hd, List.append_nil]
  · intro query body raw hraw posted
    rw [← hlive]
    rcases postMessage_cases catalog t query body with ⟨id, raw', hd, hl, h202, -⟩ | ⟨hn, hrefused, hsame⟩
    · obtain ⟨hv, hi, hshort, -⟩ := Http.delivery?_eq_some_iff.mp hd
      have hmem := (live?_isSome_iff hrun.1 id).mp hl
      exact ⟨iff_of_true h202 ⟨hshort, id, hv, hi, hmem⟩, fun hne => absurd h202 hne⟩
    · refine ⟨iff_of_false ?_ ?_, fun _ => ⟨hrefused, hsame⟩⟩
      · rw [hrefused]
        exact Http.refusalStatus_ne_202 query body
      rintro ⟨hshort, id, hv, hi, hmem⟩
      have hnone := hn id raw (Http.delivery?_eq_some_iff.mpr ⟨hv, hi, hshort, hraw⟩)
      have hsome := (live?_isSome_iff hrun.1 id).mpr hmem
      simp [Option.isNone_iff_eq_none.mp hnone] at hsome

/-- What happens once a first client has come: another one comes and leaves, while the first posts and reads. -/
def otherClient : List SessionAction := [
  .opens "b", .posts "sessionId=a".toList (Text.Utf8.encode Handler.toolsRequest), .drops "b",
  .reads "a" (some 1)]

set_option maxRecDepth 20000 in
lemma rawsFor_otherClient : SessionAction.rawsFor "a" otherClient = [Handler.toolsRequest] := by
  have hd : Http.delivery? "sessionId=a".toList (Text.Utf8.encode Handler.toolsRequest) =
      some ("a", Handler.toolsRequest) := by cbv
  have hopens : SessionAction.rawFor? "a" (.opens "b") = none := rfl
  have hdrops : SessionAction.rawFor? "a" (.drops "b") = none := rfl
  have hreads : SessionAction.rawFor? "a" (.reads "a" (some 1)) = none := rfl
  have hnil : SessionAction.rawsFor "a" [] = [] := rfl
  simp only [otherClient, SessionAction.rawsFor_cons, SessionAction.rawFor?_posts_iff.mpr hd, hopens, hdrops,
    hreads, hnil]
  simp [SessionAction.ends]

set_option maxRecDepth 20000 in
/-- The client that stays gets its own reply only, and nothing can be posted any more to the one that left. -/
theorem interleaving_of_two_clients :
    ((.opens "a" :: otherClient).filterMap SessionAction.opened?).Nodup ∧
    received .empty "a" empty (.opens "a" :: otherClient) ++
        (run .empty empty (.opens "a" :: otherClient)).waiting "a" =
      [.endpoint "/messages?sessionId=a",
        .message ("\x7b\"jsonrpc\":\"2.0\",\"id\":\"a\",\"error\":\x7b\"code\":-32600," ++
          "\"message\":\"Server not initialised\"\x7d\x7d")] ∧
    (Http.postMessage .empty (run .empty empty (.opens "a" :: otherClient)) "sessionId=b".toList []).1.status =
      400 := by
  have hfresh : ((.opens "a" :: otherClient).filterMap SessionAction.opened?).Nodup := by decide
  obtain ⟨hstream, hpost, -, -⟩ := interleaving .empty (.opens "a" :: otherClient) hfresh
  refine ⟨hfresh, ?_, ?_⟩
  · have hstays : .drops "a" ∉ otherClient := by simp [otherClient]
    have hreplies : (Handler.replies .empty {} [Handler.toolsRequest]).map .ofReply =
        [StreamEvent.message ("\x7b\"jsonrpc\":\"2.0\",\"id\":\"a\",\"error\":\x7b\"code\":-32600," ++
          "\"message\":\"Server not initialised\"\x7d\x7d")] := by cbv
    rw [(hstream [] "a" otherClient rfl).2 hstays, rawsFor_otherClient, hreplies]
    rfl
  · obtain ⟨hiff, hrefused⟩ := hpost "sessionId=b".toList [] "" (by cbv)
    have hshort : Http.refusalStatus "sessionId=b".toList [] = 400 := if_neg (by simp)
    refine (hrefused fun h202 => ?_).1.trans hshort
    obtain ⟨-, id, hv, -, hl⟩ := hiff.mp h202
    have hb : Http.Query.values "sessionId" "sessionId=b".toList = ["b"] := by cbv
    have ha : SessionAction.liveIds (.opens "a" :: otherClient) = ["a"] := by decide
    rw [hb, List.cons.injEq] at hv
    rw [ha, ← hv.1] at hl
    exact absurd hl (by decide)

/-- A text that is one byte too long to be read. -/
def longText : List Char := List.replicate (Http.bodyLimit + 1) 'a'

def longBody : List UInt8 := longText.map fun c => UInt8.ofNat c.toNat

lemma text?_longBody : Text.Utf8.text? longBody = some (String.ofList longText) := by
  have hascii : ∀ c ∈ longText, c.toNat < 0x80 := fun c hc => by
    rw [List.eq_of_mem_replicate hc]
    decide
  rw [Text.Utf8.text?, longBody, Text.Utf8.decode, Text.Utf8.decodeFrom_ascii hascii]
  rfl

lemma parse?_longText : Json.parse? (String.ofList longText) = none := by
  have hread : ∀ bound cs, Json.Written.readValue (bound + 1) ('a' :: cs) = none := fun bound cs => by
    simp [Json.Written.readValue, Json.Written.skipSpace, Json.Written.isSpace, Json.Written.readNumeral?,
      Json.Written.readWhole?, Json.Written.readDigits?]
  rw [Json.parse?, Json.Written.ofText?, String.toList_ofList, longText, List.replicate_succ, hread]
  rfl

/-- A text that is too long is not accepted for a live session and gets no reply on its stream, though a handler of
its own would reply to it. -/
theorem refused_of_longBody :
    "a" ∈ SessionAction.liveIds [.opens "a"] ∧ Http.Query.values "sessionId" "sessionId=a".toList = ["a"] ∧
    (Http.postMessage .empty (run .empty empty [.opens "a"]) "sessionId=a".toList longBody).1.status = 413 ∧
    received .empty "a" empty [.opens "a", .posts "sessionId=a".toList longBody, .reads "a" none] =
      [.endpoint (Session.endpointOf "a")] ∧
    ∃ raw, Text.Utf8.text? longBody = some raw ∧
      Handler.replies .empty {} [raw] = [.failure none .parseError] := by
  have hv : Http.Query.values "sessionId" "sessionId=a".toList = ["a"] := by cbv
  have hlong : Http.bodyLimit < longBody.length := by simp [longBody, longText]
  have hposted : ∀ t, Http.postMessage .empty t "sessionId=a".toList longBody =
      (Http.textResponse 413 "Failed to buffer the request body: length limit exceeded", t, []) := fun t =>
    postMessage_of_long (by simp only [hv, List.length_singleton, le_refl]) hlong
  have hreplies : Handler.replies .empty {} [String.ofList longText] = [.failure none .parseError] := by
    rw [Handler.replies_cons, Handler.handle, Message.parse, parse?_longText]
    rfl
  refine ⟨by decide, hv, ?_, ?_, String.ofList longText, text?_longBody, hreplies⟩
  · rw [hposted]
    rfl
  · -- The post has to go from the run before anything is computed, as its body is too long for that.
    rw [received, received_posts_of_refused (by rw [hposted])]
    rfl

end SessionTable

end UiCatalog
