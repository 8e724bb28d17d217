import Mathlib
import UiCatalog.Rpc.Handler

/-!
# The life of a handler

Texts given one after the other to a handler move it through its phases. The phase is determined by the texts
alone: a handler runs once a text that initialises is followed by one that says that the client is ready. A
running handler answers every text as every other running handler does.
-/
namespace UiCatalog.Rpc

/-- A request to initialise whose parameters can be read. -/
def Request.Initializes (r : Request) : Prop :=
  r.method = "initialize" ∧ ∃ params, r.decodeParams InitializeParams.decode = .ok params

/-- A text that asks to initialise, with parameters that can be read. -/
def AsksInitialize (raw : String) : Prop :=
  ∃ r, Message.parse raw = .ok (.request r) ∧ r.Initializes

def SaysReady (raw : String) : Prop :=
  ∃ n, Message.parse raw = .ok (.notification n) ∧ n.method = "notifications/initialized"

/-- The phases in the order in which they are passed. -/
def Phase.rank : Phase → Nat
  | awaitingInit => 0
  | initialising => 1
  | running => 2

/-- One text of a run: who received it, and what came of it. -/
structure Turn where
  receiver : Handler
  raw : String
  outcome : Outcome

namespace Turn

/-- The text is a request to initialise and it is accepted. -/
def Initializes (t : Turn) : Prop := t.receiver.phase = .awaitingInit ∧ AsksInitialize t.raw

/-- The text tells that the client is ready and it is accepted. -/
def Readies (t : Turn) : Prop := t.receiver.phase = .initialising ∧ SaysReady t.raw

/-- The text is a request to initialise that is answered with a result. -/
def isGranted (t : Turn) : Bool :=
  match Message.parse t.raw, t.outcome.reply with
  | .ok (.request r), some (.result _ _) => r.method == "initialize"
  | _, _ => false

end Turn

namespace Handler

def turns (catalog : Catalog) : Handler → List String → List Turn
  | _, [] => []
  | h, raw :: raws =>
    let outcome := h.handle catalog raw
    ⟨h, raw, outcome⟩ :: turns catalog outcome.handler raws

def after (catalog : Catalog) (h : Handler) (raws : List String) : Handler :=
  raws.foldl (fun h raw => (h.handle catalog raw).handler) h

variable {catalog : Catalog} {h : Handler}

lemma after_append (raws more : List String) :
    h.after catalog (raws ++ more) = (h.after catalog raws).after catalog more :=
  List.foldl_append

lemma after_append_singleton (raws : List String) (raw : String) :
    h.after catalog (raws ++ [raw]) = ((h.after catalog raws).handle catalog raw).handler := by
  simp [after]

lemma turns_append_singleton (raws : List String) (raw : String) :
    h.turns catalog (raws ++ [raw]) =
      h.turns catalog raws ++
        [⟨h.after catalog raws, raw, (h.after catalog raws).handle catalog raw⟩] := by
  induction raws generalizing h with
  | nil => rfl
  | cons r rest ih => exact congrArg (_ :: ·) ih

/-- In every turn the text is handled by its receiver. -/
lemma outcome_of_mem_turns {raws : List String} {t : Turn} (ht : t ∈ h.turns catalog raws) :
    t.outcome = t.receiver.handle catalog t.raw := by
  induction raws generalizing h with
  | nil => simp [turns] at ht
  | cons raw rest ih =>
    rcases List.mem_cons.mp ht with rfl | ht
    · rfl
    · exact ih ht

/-! ## One text -/

/-- A request changes a handler just when it is the awaited one; no other `initialize` has a result. -/
lemma answer_cases (catalog : Catalog) (h : Handler) (r : Request) :
    (h.phase = .awaitingInit ∧ r.Initializes ∧ (h.answer catalog r).1 = initialised ∧
        (h.answer catalog r).2.1 = .ok initializeResult) ∨
      (¬ (h.phase = .awaitingInit ∧ r.Initializes) ∧ (h.answer catalog r).1 = h ∧
        (r.method = "initialize" → ∃ f, (h.answer catalog r).2.1 = .error f)) := by
  by_cases hm : r.method = "initialize"
  · by_cases hp : h.phase = .awaitingInit
    · cases hd : r.decodeParams InitializeParams.decode with
      | ok params =>
        exact .inl ⟨hp, ⟨hm, params, hd⟩, by simp [answer, hm, hp, hd], by simp [answer, hm, hp, hd]⟩
      | error f =>
        refine .inr ⟨?_, by simp [answer, hm, hp, hd], fun _ => ⟨f, by simp [answer, hm, hp, hd]⟩⟩
        rintro ⟨-, -, params, hok⟩
        simp [hd] at hok
    · have ha : h.answer catalog r = (h, .error (.invalidRequest "Server already initialised"), []) := by
        simp [answer, hm, hp]
      exact .inr ⟨fun hi => hp hi.1, by rw [ha], fun _ => ⟨_, by rw [ha]⟩⟩
  · refine .inr ⟨fun hi => hm hi.2.1, ?_, fun hi => absurd hi hm⟩
    simp only [answer, hm, if_false]
    split_ifs <;> rfl

/-- A request that only a running handler answers is refused by every other one. -/
lemma answer_guarded {r : Request} (hg : r.method ∈ guardedMethods) (hp : h.phase ≠ .running) :
    h.answer catalog r = (h, .error (.invalidRequest "Server not initialised"), []) := by
  have hi : r.method ≠ "initialize" := by rintro he; rw [he] at hg; exact absurd hg (by decide)
  have hn : r.method ≠ "ping" := by rintro he; rw [he] at hg; exact absurd hg (by decide)
  simp [answer, hi, hn, hp, hg]

lemma handle_request {raw : String} {r : Request} (hr : Message.parse raw = .ok (.request r)) :
    (h.handle catalog raw).handler = (h.answer catalog r).1 ∧
      (h.handle catalog raw).reply = some (replyTo r (h.answer catalog r).2.1) := by
  simp [handle, hr, handleRequest]

lemma handle_notification {raw : String} {n : Notification}
    (hn : Message.parse raw = .ok (.notification n)) :
    h.handle catalog raw = h.handleNotification n := by
  simp [handle, hn]

lemma handle_rejection {raw : String} {e : Rejection} (he : Message.parse raw = .error e) :
    (h.handle catalog raw).handler = h ∧ (h.handle catalog raw).reply = some e.reply := by
  simp [handle, he]

lemma handle_cases (catalog : Catalog) (h : Handler) (raw : String) :
    (h.phase = .awaitingInit ∧ AsksInitialize raw ∧ (h.handle catalog raw).handler = initialised) ∨
      (h.phase = .initialising ∧ SaysReady raw ∧
        (h.handle catalog raw).handler = { h with phase := .running }) ∨
      (¬ (h.phase = .awaitingInit ∧ AsksInitialize raw) ∧ ¬ (h.phase = .initialising ∧ SaysReady raw) ∧
        (h.handle catalog raw).handler = h) := by
  cases hm : Message.parse raw with
  | error e =>
    refine .inr (.inr ⟨?_, ?_, (handle_rejection hm).1⟩)
    · rintro ⟨-, r, hr, -⟩
      simp [hm] at hr
    · rintro ⟨-, n, hn, -⟩
      simp [hm] at hn
  | ok m =>
    cases m with
    | request r =>
      have hs : ¬ SaysReady raw := by
        rintro ⟨n, hn, -⟩
        simp [hm] at hn
      have ha : AsksInitialize raw ↔ r.Initializes := by simp [AsksInitialize, hm]
      rw [(handle_request hm).1, ha]
      rcases answer_cases catalog h r with ⟨hp, hi, he, -⟩ | ⟨hn, he, -⟩
      · exact .inl ⟨hp, hi, he⟩
      · exact .inr (.inr ⟨hn, fun hr => hs hr.2, he⟩)
    | notification n =>
      have ha : ¬ AsksInitialize raw := by
        rintro ⟨r, hr, -⟩
        simp [hm] at hr
      have hs : SaysReady raw ↔ n.method = "notifications/initialized" := by simp [SaysReady, hm]
      rw [handle_notification hm, handleNotification, hs]
      by_cases hp : n.method = "notifications/initialized" ∧ h.phase = .initialising
      · exact .inr (.inl ⟨hp.2, hp.1, by rw [if_pos hp]⟩)
      · exact .inr (.inr ⟨fun hi => ha hi.2, fun hi => hp hi.symm, by rw [if_neg hp]⟩)

lemma rank_handle (catalog : Catalog) (h : Handler) (raw : String) :
    h.phase.rank ≤ (h.handle catalog raw).handler.phase.rank := by
  rcases handle_cases catalog h raw with ⟨hp, -, he⟩ | ⟨hp, -, he⟩ | ⟨-, -, he⟩
  · simp [he, hp, initialised, Phase.rank]
  · simp [he, hp, Phase.rank]
  · exact Nat.le_of_eq (congrArg (·.phase.rank) he.symm)

lemma awaiting_handle_iff (catalog : Catalog) (h : Handler) (raw : String) :
    (h.handle catalog raw).handler.phase = .awaitingInit ↔
      h.phase = .awaitingInit ∧ ¬ AsksInitialize raw := by
  rcases handle_cases catalog h raw with ⟨hp, hi, he⟩ | ⟨hp, -, he⟩ | ⟨hi, -, he⟩
  · simp [he, hi, initialised]
  · simp [he, hp]
  · rw [he]
    exact ⟨fun hp => ⟨hp, fun ha => hi ⟨hp, ha⟩⟩, And.left⟩

lemma running_handle_iff (catalog : Catalog) (h : Handler) (raw : String) :
    (h.handle catalog raw).handler.phase = .running ↔
      h.phase = .running ∨ h.phase = .initialising ∧ SaysReady raw := by
  rcases handle_cases catalog h raw with ⟨hp, -, he⟩ | ⟨hp, hs, he⟩ | ⟨-, hs, he⟩
  · simp [he, hp, initialised]
  · simp [he, hp, hs]
  · rw [he]
    exact ⟨.inl, fun hr => hr.resolve_right hs⟩

/-- The version is agreed on together with the end of the first phase. -/
def Agreed (h : Handler) : Prop :=
  h.version = if h.phase = .awaitingInit then none else some protocolVersion

lemma agreed_new : Agreed {} := rfl

lemma agreed_handle (ha : h.Agreed) (raw : String) : (h.handle catalog raw).handler.Agreed := by
  rcases handle_cases catalog h raw with ⟨-, -, he⟩ | ⟨hp, -, he⟩ | ⟨-, -, he⟩ <;> rw [he]
  · rfl
  · simpa [Agreed, hp] using ha
  · exact ha

/-- A request to initialise has a result just when it is accepted. -/
lemma isGranted_iff (catalog : Catalog) (h : Handler) (raw : String) :
    (Turn.mk h raw (h.handle catalog raw)).isGranted ↔ h.phase = .awaitingInit ∧ AsksInitialize raw := by
  cases hm : Message.parse raw with
  | error e => simp [Turn.isGranted, AsksInitialize, hm]
  | ok m =>
    cases m with
    | notification n => simp [Turn.isGranted, AsksInitialize, hm]
    | request r =>
      have ha : AsksInitialize raw ↔ r.Initializes := by simp [AsksInitialize, hm]
      simp only [Turn.isGranted, hm, (handle_request hm).2, ha]
      rcases answer_cases catalog h r with ⟨hp, hi, -, hok⟩ | ⟨hn, -, hf⟩
      · simp [hok, replyTo, hp, hi, hi.1]
      · refine iff_of_false ?_ hn
        by_cases hi : r.method = "initialize"
        · obtain ⟨f, hf⟩ := hf hi
          simp [hf, replyTo]
        · cases replyTo r (h.answer catalog r).2.1 <;> simp [hi]

/-! ## Runs -/

lemma rank_after (raws : List String) : h.phase.rank ≤ (h.after catalog raws).phase.rank := by
  induction raws using List.reverseRecOn with
  | nil => exact Nat.le_refl _
  | append_singleton raws raw ih =>
    rw [after_append_singleton]
    exact Nat.le_trans ih (rank_handle _ _ _)

lemma agreed_after (ha : h.Agreed) (raws : List String) : (h.after catalog raws).Agreed := by
  induction raws using List.reverseRecOn with
  | nil => exact ha
  | append_singleton raws raw ih =>
    rw [after_append_singleton]
    exact agreed_handle ih raw

/-- All running handlers are the same. -/
lemma eq_of_running (ha : h.Agreed) (hp : h.phase = .running) : h = ⟨.running, some protocolVersion⟩ := by
  obtain ⟨phase, version⟩ := h
  simp only at hp
  subst hp
  simpa [Agreed] using ha

lemma pair_sublist_append_singleton {α : Type} {s t x : α} {l : List α} :
    [s, t].Sublist (l ++ [x]) ↔ [s, t].Sublist l ∨ s ∈ l ∧ t = x := by
  have hr : [s, t].Sublist l ↔ [t, s].Sublist l.reverse := List.reverse_sublist.symm
  rw [← List.reverse_sublist, hr]
  simp [List.sublist_cons_iff, and_comm, eq_comm]

lemma awaiting_after_iff (raws : List String) :
    (after catalog {} raws).phase = .awaitingInit ↔ ∀ raw ∈ raws, ¬ AsksInitialize raw := by
  induction raws using List.reverseRecOn with
  | nil => simp [after]
  | append_singleton raws raw ih =>
    rw [after_append_singleton, awaiting_handle_iff, ih]
    simp [or_imp, forall_and]

lemma running_after_iff (raws : List String) :
    (after catalog {} raws).phase = .running ↔
      ∃ x y, [x, y].Sublist raws ∧ AsksInitialize x ∧ SaysReady y := by
  induction raws using List.reverseRecOn with
  | nil => simp [after]
  | append_singleton raws raw ih =>
    rw [after_append_singleton, running_handle_iff, ih]
    constructor
    · rintro (⟨x, y, hs, hx, hy⟩ | ⟨hp, hy⟩)
      · exact ⟨x, y, pair_sublist_append_singleton.mpr (.inl hs), hx, hy⟩
      · -- an initialising handler has left its first phase by an earlier text
        have hl : ¬ ∀ raw ∈ raws, ¬ AsksInitialize raw := fun hn => by
          simp [(awaiting_after_iff raws).mpr hn] at hp
        push Not at hl
        obtain ⟨x, hx, hi⟩ := hl
        exact ⟨x, raw, pair_sublist_append_singleton.mpr (.inr ⟨hx, rfl⟩), hi, hy⟩
    · rintro ⟨x, y, hs, hx, hy⟩
      rcases pair_sublist_append_singleton.mp hs with hs | ⟨hm, rfl⟩
      · exact .inl ⟨x, y, hs, hx, hy⟩
      · cases hp : (after catalog {} raws).phase with
        | awaitingInit => exact absurd hx ((awaiting_after_iff raws).mp hp x hm)
        | initialising => exact .inr ⟨rfl, hy⟩
        | running => exact .inl (ih.mp hp)

/-- The first phase lasts as long as no request to initialise is accepted. -/
lemma awaiting_turns_iff (raws : List String) :
    (after catalog {} raws).phase = .awaitingInit ↔ ¬ ∃ s ∈ turns catalog {} raws, s.Initializes := by
  induction raws using List.reverseRecOn with
  | nil => simp [after, turns]
  | append_singleton raws raw ih =>
    have hl : (∃ s ∈ turns catalog {} (raws ++ [raw]), s.Initializes) ↔
        (∃ s ∈ turns catalog {} raws, s.Initializes) ∨
          (after catalog {} raws).phase = .awaitingInit ∧ AsksInitialize raw := by
      simp [turns_append_singleton, or_and_right, exists_or, Turn.Initializes]
    rw [after_append_singleton, awaiting_handle_iff, hl, ih]
    by_cases he : ∃ s ∈ turns catalog {} raws, s.Initializes <;> simp [he]

/-- The last phase is reached by an accepted request to initialise and a later accepted notification. -/
lemma running_turns_iff (raws : List String) :
    (after catalog {} raws).phase = .running ↔
      ∃ s t, [s, t].Sublist (turns catalog {} raws) ∧ s.Initializes ∧ t.Readies := by
  induction raws using List.reverseRecOn with
  | nil => simp [after, turns]
  | append_singleton raws raw ih =>
    rw [after_append_singleton, running_handle_iff, turns_append_singleton, ih]
    constructor
    · rintro (⟨s, t, hs, hi, hr⟩ | ⟨hp, hy⟩)
      · exact ⟨s, t, pair_sublist_append_singleton.mpr (.inl hs), hi, hr⟩
      · have hl : ∃ s ∈ turns catalog {} raws, s.Initializes := by
          by_contra hn
          simp [(awaiting_turns_iff raws).mpr hn] at hp
        obtain ⟨s, hm, hi⟩ := hl
        exact ⟨s, _, pair_sublist_append_singleton.mpr (.inr ⟨hm, rfl⟩), hi, hp, hy⟩
    · rintro ⟨s, t, hs, hi, hr⟩
      rcases pair_sublist_append_singleton.mp hs with hs | ⟨-, rfl⟩
      · exact .inl ⟨s, t, hs, hi, hr⟩
      · exact .inr hr

lemma countP_isGranted (raws : List String) :
    (turns catalog {} raws).countP Turn.isGranted =
      if (after catalog {} raws).phase = .awaitingInit then 0 else 1 := by
  induction raws using List.reverseRecOn with
  | nil => simp [after, turns]
  | append_singleton raws raw ih =>
    rw [after_append_singleton, turns_append_singleton, List.countP_append, ih, List.countP_singleton]
    have hg := isGranted_iff catalog (after catalog {} raws) raw
    have hn := awaiting_handle_iff catalog (after catalog {} raws) raw
    by_cases hp : (after catalog {} raws).phase = .awaitingInit <;>
      by_cases ha : AsksInitialize raw <;> simp [hg, hn, hp, ha]

lemma initialising_iff (p : Phase) : p = .initialising ↔ p ≠ .awaitingInit ∧ p ≠ .running := by
  cases p <;> simp

/-- The life of a handler over any run: its phases, its version, and what it answers in which phase. -/
theorem lifecycle (catalog : Catalog) (raws : List String) :
    let run := turns catalog {} raws
    let last := after catalog {} raws
    (last.phase = .running ↔ ∃ s t, [s, t].Sublist run ∧ s.Initializes ∧ t.Readies) ∧
    (last.phase = .initialising ↔
      (∃ s ∈ run, s.Initializes) ∧ ¬ ∃ s t, [s, t].Sublist run ∧ s.Initializes ∧ t.Readies) ∧
    (last.phase = .awaitingInit ↔ ¬ ∃ s ∈ run, s.Initializes) ∧
    (last.phase = .running ↔ ∃ x y, [x, y].Sublist raws ∧ AsksInitialize x ∧ SaysReady y) ∧
    (∀ more, last.phase.rank ≤ (after catalog {} (raws ++ more)).phase.rank) ∧
    (∀ t ∈ run, t.isGranted ↔ t.Initializes) ∧
    run.countP Turn.isGranted ≤ 1 ∧
    (last.version = some "2024-11-05" ↔ last.phase ≠ .awaitingInit) ∧
    (∀ t ∈ run, ∀ r, Message.parse t.raw = .ok (.request r) →
      r.method ∈ ["tools/list", "tools/call", "resources/list", "resources/templates/list",
        "resources/read"] →
      t.receiver.phase ≠ .running →
        t.outcome.handler = t.receiver ∧
        ∃ f, f.code.code = -32600 ∧ t.outcome.reply = some (.failure (some r.id) f)) ∧
    (last.phase = .running → ∀ others raw, (after catalog {} others).phase = .running →
      (handle catalog (after catalog {} others) raw).reply = (handle catalog last raw).reply) := by
  intro run last
  have hv : last.Agreed := agreed_after agreed_new raws
  refine ⟨running_turns_iff raws, ?_, awaiting_turns_iff raws, running_after_iff raws, ?_, ?_, ?_, ?_, ?_, ?_⟩
  · rw [initialising_iff, ne_eq, ne_eq, running_turns_iff, awaiting_turns_iff, not_not]
  · intro more
    rw [after_append]
    exact rank_after more
  · intro t ht
    have ho := outcome_of_mem_turns ht
    obtain ⟨receiver, raw, outcome⟩ := t
    simp only at ho
    subst ho
    exact isGranted_iff catalog receiver raw
  · rw [countP_isGranted]
    split_ifs <;> simp
  · rw [hv]
    split_ifs with hp <;> simp [hp, protocolVersion]
  · intro t ht r hr hg hp
    have hh : (handle catalog t.receiver t.raw).handler = _ := (handle_request hr).1
    have hreply : (handle catalog t.receiver t.raw).reply = _ := (handle_request hr).2
    rw [outcome_of_mem_turns ht, hh, hreply, answer_guarded hg hp]
    exact ⟨rfl, _, rfl, rfl⟩
  · intro hp others raw ho
    rw [eq_of_running hv hp, eq_of_running (agreed_after agreed_new others) ho]

def toolsRequest : String := "\x7b\"jsonrpc\":\"2.0\",\"id\":\"a\",\"method\":\"tools/list\"\x7d"

def initializeRequest : String :=
  "\x7b\"jsonrpc\":\"2.0\",\"id\":\"b\",\"method\":\"initialize\",\"params\":\x7b\"protocolVersion\":\"1\"\x7d\x7d"

def readyNotification : String := "\x7b\"jsonrpc\":\"2.0\",\"method\":\"notifications/initialized\"\x7d"

set_option maxRecDepth 20000 in
/-- A request that comes too early is refused, and leaves no trace once the handler runs. -/
theorem lifecycle_of_early_request :
    (∃ f, f.code.code = -32600 ∧
      (handle .empty {} toolsRequest).reply = some (.failure (some (.text "a")) f)) ∧
    (after .empty {} [toolsRequest, initializeRequest, readyNotification]).phase = .running ∧
    (handle .empty (after .empty {} [initializeRequest, readyNotification]) toolsRequest).reply =
      (handle .empty (after .empty {} [toolsRequest, initializeRequest, readyNotification]) toolsRequest).reply := by
  have hr : (after .empty {} [toolsRequest, initializeRequest, readyNotification]).phase = .running := by cbv
  have hs : (after .empty {} [initializeRequest, readyNotification]).phase = .running := by cbv
  have hm : Message.parse toolsRequest = .ok (.request ⟨.text "a", "tools/list", none⟩) := by cbv
  obtain ⟨-, -, -, -, -, -, -, -, hearly, hsame⟩ :=
    lifecycle .empty [toolsRequest, initializeRequest, readyNotification]
  exact ⟨(hearly _ (.head _) _ hm (by decide) (by decide)).2, hr, hsame hr _ _ hs⟩

end Handler

end UiCatalog.Rpc
