import MaxApi.Responses.ChatToResponses
import Mathlib.Algebra.Ring.Nat

/-! # Responses: the events of a stream

The order that the events of a response keep, as a machine that reads them: `response.created` comes
first; items are added with consecutive indices; the deltas of an item come after it is added and
before its part and then itself are done, and what these carry is the concatenation of the deltas;
one terminal event comes last, when every item is done, and its response has the same items.

Every event but the terminal one adds to the weight of what has been read (`accept_weight`), so that
a reader who missed events cannot take the response for complete. -/

namespace MaxApi.Responses

open Dto

/-! ### The machine -/

/-- What has been read of an output item: its deltas, and whether its part and itself are done. -/
structure ItemView where
  deltas : String
  closed : Bool
  done : Bool
  deriving DecidableEq

/-- What has been read of a response. -/
structure Reader where
  created : Bool
  items : List ItemView
  finished : Bool
  deriving DecidableEq

def Reader.initial : Reader := ⟨false, [], false⟩

section machine

variable (codec : ArgumentsCodec)

/-- The payload of an item is a text. -/
def Carries (item : ResponsesOutput) (text : String) : Prop :=
  match item.type with
  | .message => item.content = [⟨"output_text", text⟩]
  | .reasoning => item.content = [⟨"summary_text", text⟩]
  | .functionCall => item.arguments = some (chatArgumentsRawMessage codec text)
  | .customToolCall => item.input = text
  | .other _ => False

instance (item : ResponsesOutput) (text : String) : Decidable (Carries codec item text) := by
  unfold Carries
  cases item.type <;> infer_instance

namespace Reader

variable (r : Reader)

/-- Item `i` changes, if it may. -/
def changeItem (i : ℕ) (ok : ItemView → Prop) [DecidablePred ok] (f : ItemView → ItemView) :
    Option Reader :=
  match r.items[i]? with
  | none => none
  | some v => if ok v then some { r with items := r.items.set i (f v) } else none

/-- A delta of item `i`. -/
def readDelta (i : ℕ) (delta : String) : Option Reader :=
  r.changeItem i (fun v => v.closed = false ∧ v.done = false)
    fun v => { v with deltas := v.deltas ++ delta }

/-- The part of item `i` is done. -/
def readPart (i : ℕ) (payload : Option String) : Option Reader :=
  r.changeItem i (fun v => v.closed = false ∧ v.done = false ∧ ∀ text ∈ payload, text = v.deltas)
    fun v => { v with closed := true }

/-- Item `i` is done. -/
def readItem (i : ℕ) (item : ResponsesOutput) : Option Reader :=
  r.changeItem i (fun v => v.closed = true ∧ v.done = false ∧ Carries codec item v.deltas)
    fun v => { v with done := true }

/-- The response is complete. -/
def readTerminal (response : OpenAIResponsesResponse) : Option Reader :=
  if (∀ v ∈ r.items, v.closed = true ∧ v.done = true) ∧
      List.Forall₂ (Carries codec) response.output (r.items.map (·.deltas)) then
    some { r with finished := true }
  else none

end Reader

/-- An event between the first and the end. -/
def readEvent (r : Reader) : ResponsesStreamEvent → Option Reader
  | .created _ => none
  | .outputItemAdded i _ _ =>
      if i = r.items.length then some { r with items := r.items ++ [⟨"", false, false⟩] } else none
  | .outputTextDelta i _ _ delta => r.readDelta i delta
  | .outputTextDone i _ _ => r.readPart i none
  | .reasoningSummaryDelta i _ _ delta => r.readDelta i delta
  | .reasoningSummaryDone i _ _ part => r.readPart i (some part.text)
  | .functionArgsDelta i _ delta => r.readDelta i delta
  | .functionArgsDone i _ arguments => r.readPart i (some arguments)
  | .customInputDelta i _ delta => r.readDelta i delta
  | .customInputDone i _ input => r.readPart i (some input)
  | .outputItemDone i item => r.readItem codec i item
  | .completed response => r.readTerminal codec response
  | .incomplete response => r.readTerminal codec response

/-- The reader after an event, if the event is in order. -/
def accept (r : Reader) (event : ResponsesStreamEvent) : Option Reader :=
  if r.finished then none
  else if r.created then readEvent codec r event
  else
    match event with
    | .created _ => some { r with created := true }
    | _ => none

def acceptAll : Reader → List ResponsesStreamEvent → Option Reader
  | r, [] => some r
  | r, event :: events => (accept codec r event).bind fun r => acceptAll r events

/-- The events are in order from the first to the terminal one. -/
def WellFormed (events : List ResponsesStreamEvent) : Prop :=
  ∃ r, acceptAll codec .initial events = some r ∧ r.finished = true

@[simp] theorem acceptAll_nil (r : Reader) : acceptAll codec r [] = some r := rfl

@[simp] theorem acceptAll_cons (r : Reader) (e : ResponsesStreamEvent)
    (es : List ResponsesStreamEvent) :
    acceptAll codec r (e :: es) = (accept codec r e).bind fun r => acceptAll codec r es := rfl

theorem acceptAll_append (as bs : List ResponsesStreamEvent) :
    ∀ r, acceptAll codec r (as ++ bs) = (acceptAll codec r as).bind fun r =>
      acceptAll codec r bs := by
  induction as with
  | nil => intro r; rfl
  | cons e es ih =>
      intro r
      rw [List.cons_append, acceptAll_cons, acceptAll_cons]
      cases accept codec r e with
      | none => rfl
      | some r' => exact ih r'

end machine

/-! ### Items -/

namespace Reader

variable (r : Reader)

/-- Item `i` is `v`. -/
def put (i : ℕ) (v : ItemView) : Reader := { r with items := r.items.set i v }

/-- A further item. -/
def add (v : ItemView) : Reader := { r with items := r.items ++ [v] }

variable {r}

theorem put_put (i : ℕ) (v w : ItemView) : (r.put i v).put i w = r.put i w := by
  unfold put
  rw [List.set_set]

theorem put_getElem {i : ℕ} {v : ItemView} (h : r.items[i]? = some v) (w : ItemView) :
    (r.put i w).items[i]? = some w := by
  have hi : i < r.items.length := (List.getElem?_eq_some_iff.mp h).1
  unfold put
  exact List.getElem?_set_self hi

theorem add_getElem (v : ItemView) : (r.add v).items[r.items.length]? = some v := by
  unfold add
  exact List.getElem?_concat_length

theorem add_put (v w : ItemView) : (r.add v).put r.items.length w = r.add w := by
  unfold add put
  dsimp only
  rw [List.set_append_right _ _ (Nat.le_refl _), Nat.sub_self, List.set_cons_zero]

theorem changeItem_eq {i : ℕ} {ok : ItemView → Prop} [DecidablePred ok] {f : ItemView → ItemView}
    {v : ItemView} (h : r.items[i]? = some v) (hok : ok v) :
    r.changeItem i ok f = some (r.put i (f v)) := by
  unfold changeItem
  rw [h]
  exact if_pos hok

theorem changeItem_none {i : ℕ} {ok : ItemView → Prop} [DecidablePred ok] {f : ItemView → ItemView}
    {v : ItemView} (h : r.items[i]? = some v) (hok : ¬ok v) : r.changeItem i ok f = none := by
  unfold changeItem
  rw [h]
  exact if_neg hok

/-- The response has begun and not ended. -/
def Open (r : Reader) : Prop := r.created = true ∧ r.finished = false

theorem Open.put (h : r.Open) (i : ℕ) (v : ItemView) : (r.put i v).Open := h

theorem Open.add (h : r.Open) (v : ItemView) : (r.add v).Open := h

theorem Open.accept (h : r.Open) (codec : ArgumentsCodec) (event : ResponsesStreamEvent) :
    accept codec r event = readEvent codec r event := by
  unfold Responses.accept
  rw [if_neg (by rw [h.2]; exact Bool.false_ne_true), if_pos h.1]

theorem Open.accept_added (h : r.Open) (codec : ArgumentsCodec) (id : String)
    (item : ResponsesOutput) :
    Responses.accept codec r (.outputItemAdded r.items.length id item) =
      some (r.add ⟨"", false, false⟩) := by
  rw [h.accept]
  exact if_pos rfl

theorem accept_created (codec : ArgumentsCodec) (hcreated : ¬r.created = true)
    (hfinished : r.finished = false) (response : OpenAIResponsesResponse) :
    Responses.accept codec r (.created response) = some { r with created := true } := by
  unfold Responses.accept
  rw [if_neg (by rw [hfinished]; exact Bool.false_ne_true), if_neg hcreated]

end Reader

/-! ### Weights -/

def ItemView.weight (v : ItemView) : ℕ := 1 + v.deltas.length + v.closed.toNat + v.done.toNat

def Reader.weight (r : Reader) : ℕ := r.created.toNat + (r.items.map ItemView.weight).sum

/-- How much there is to read in an event. -/
def eventWeight : ResponsesStreamEvent → ℕ
  | .outputTextDelta _ _ _ delta => delta.length
  | .reasoningSummaryDelta _ _ _ delta => delta.length
  | .functionArgsDelta _ _ delta => delta.length
  | .customInputDelta _ _ delta => delta.length
  | .completed _ => 0
  | .incomplete _ => 0
  | _ => 1

def weightAll (events : List ResponsesStreamEvent) : ℕ := (events.map eventWeight).sum

theorem weightAll_append (as bs : List ResponsesStreamEvent) :
    weightAll (as ++ bs) = weightAll as + weightAll bs := by
  unfold weightAll
  rw [List.map_append, List.sum_append]

/-- The sum of weights after one item has changed. -/
theorem sum_weight_set {v : ItemView} (v' : ItemView) :
    ∀ {items : List ItemView} {i : ℕ}, items[i]? = some v →
      ((items.set i v').map ItemView.weight).sum + v.weight =
        (items.map ItemView.weight).sum + v'.weight
  | [], _, h => by cases h
  | w :: items, 0, h => by
      rw [List.getElem?_cons_zero, Option.some_inj] at h
      rw [h, List.set_cons_zero, List.map_cons, List.map_cons, List.sum_cons, List.sum_cons]
      omega
  | w :: items, i + 1, h => by
      rw [List.getElem?_cons_succ] at h
      have ih := sum_weight_set v' h
      rw [List.set_cons_succ, List.map_cons, List.map_cons, List.sum_cons, List.sum_cons]
      omega

section weights

variable {codec : ArgumentsCodec} {r r' : Reader}

theorem changeItem_some {i : ℕ} {ok : ItemView → Prop} [DecidablePred ok]
    {f : ItemView → ItemView} :
    r.changeItem i ok f = some r' ↔
      ∃ v, r.items[i]? = some v ∧ ok v ∧ r' = { r with items := r.items.set i (f v) } := by
  unfold Reader.changeItem
  cases hv : r.items[i]? with
  | none => simp
  | some v =>
      by_cases hok : ok v
      · simp [hok, eq_comm]
      · simp [hok]

/-- A change of one item adds what it adds to that item. -/
theorem changeItem_weight {i : ℕ} {ok : ItemView → Prop} [DecidablePred ok]
    {f : ItemView → ItemView} {n : ℕ} (hf : ∀ v, ok v → (f v).weight = v.weight + n)
    (h : r.changeItem i ok f = some r') : r'.weight = r.weight + n := by
  obtain ⟨v, hv, hok, rfl⟩ := changeItem_some.mp h
  have hsum := sum_weight_set (f v) hv
  have := hf v hok
  unfold Reader.weight
  dsimp only
  omega

theorem readDelta_weight {i : ℕ} {delta : String} (h : r.readDelta i delta = some r') :
    r'.weight = r.weight + delta.length := by
  refine changeItem_weight (fun v _ => ?_) h
  unfold ItemView.weight
  dsimp only
  rw [String.length_append]
  omega

theorem readPart_weight {i : ℕ} {payload : Option String} (h : r.readPart i payload = some r') :
    r'.weight = r.weight + 1 := by
  refine changeItem_weight (fun v hv => ?_) h
  unfold ItemView.weight
  dsimp only
  rw [hv.1, Bool.toNat_true, Bool.toNat_false]
  omega

theorem readItem_weight {i : ℕ} {item : ResponsesOutput} (h : r.readItem codec i item = some r') :
    r'.weight = r.weight + 1 := by
  refine changeItem_weight (fun v hv => ?_) h
  unfold ItemView.weight
  dsimp only
  rw [hv.2.1, Bool.toNat_true, Bool.toNat_false]

theorem readTerminal_weight {response : OpenAIResponsesResponse}
    (h : r.readTerminal codec response = some r') : r'.weight = r.weight := by
  unfold Reader.readTerminal at h
  split_ifs at h
  cases h
  rfl

theorem readEvent_weight {event : ResponsesStreamEvent}
    (h : readEvent codec r event = some r') : r'.weight = r.weight + eventWeight event := by
  cases event with
  | created response => cases h
  | outputItemAdded i id item =>
      unfold readEvent at h
      dsimp only at h
      split_ifs at h
      cases h
      unfold Reader.weight eventWeight
      rw [List.map_append, List.sum_append]
      rfl
  | outputTextDelta i j id delta => exact readDelta_weight h
  | outputTextDone i j id => exact readPart_weight h
  | reasoningSummaryDelta i j id delta => exact readDelta_weight h
  | reasoningSummaryDone i j id part => exact readPart_weight h
  | functionArgsDelta i id delta => exact readDelta_weight h
  | functionArgsDone i id arguments => exact readPart_weight h
  | customInputDelta i id delta => exact readDelta_weight h
  | customInputDone i id input => exact readPart_weight h
  | outputItemDone i item => exact readItem_weight h
  | completed response => exact readTerminal_weight h
  | incomplete response => exact readTerminal_weight h

/-- **Reading** an event adds its weight. -/
theorem accept_weight {event : ResponsesStreamEvent} (h : accept codec r event = some r') :
    r'.weight = r.weight + eventWeight event := by
  unfold accept at h
  by_cases hfinished : r.finished = true
  · rw [if_pos hfinished] at h
    cases h
  rw [if_neg hfinished] at h
  by_cases hcreated : r.created = true
  · rw [if_pos hcreated] at h
    exact readEvent_weight h
  · rw [if_neg hcreated] at h
    cases event with
    | created response =>
        cases h
        unfold Reader.weight eventWeight
        rw [Bool.not_eq_true] at hcreated
        rw [hcreated]
        simp only [Bool.toNat_true, Bool.toNat_false]
        omega
    | _ => cases h

theorem acceptAll_weight :
    ∀ {events : List ResponsesStreamEvent} {r r' : Reader}, acceptAll codec r events = some r' →
      r'.weight = r.weight + weightAll events
  | [], r, r', h => by
      cases h
      rfl
  | e :: es, r, r', h => by
      rw [acceptAll_cons] at h
      obtain ⟨r₁, he, hes⟩ := Option.bind_eq_some_iff.mp h
      have hstep := accept_weight he
      have hrest := acceptAll_weight hes
      unfold weightAll at hrest ⊢
      rw [List.map_cons, List.sum_cons]
      omega

/-! ### The terminal event -/

theorem readTerminal_some {response : OpenAIResponsesResponse} :
    r.readTerminal codec response = some r' ↔
      ((∀ v ∈ r.items, v.closed = true ∧ v.done = true) ∧
        List.Forall₂ (Carries codec) response.output (r.items.map (·.deltas))) ∧
        r' = { r with finished := true } := by
  unfold Reader.readTerminal
  by_cases h : (∀ v ∈ r.items, v.closed = true ∧ v.done = true) ∧
      List.Forall₂ (Carries codec) response.output (r.items.map (·.deltas))
  · rw [if_pos h, Option.some_inj]
    exact ⟨fun heq => ⟨h, heq.symm⟩, fun hr => hr.2.symm⟩
  · rw [if_neg h]
    exact ⟨nofun, fun hr => absurd hr.1 h⟩

/-- An item carries one text. -/
theorem carries_inj {item : ResponsesOutput} {a b : String} (ha : Carries codec item a)
    (hb : Carries codec item b) : a = b := by
  unfold Carries at ha hb
  cases htype : item.type with
  | message | reasoning =>
      rw [htype] at ha hb
      dsimp only at ha hb
      rw [ha] at hb
      cases hb
      rfl
  | functionCall =>
      rw [htype] at ha hb
      dsimp only at ha hb
      rw [ha] at hb
      exact codec.marshal_injective (Option.some.inj hb)
  | customToolCall =>
      rw [htype] at ha hb
      exact ha.symm.trans hb
  | other name =>
      rw [htype] at ha
      exact ha.elim

/-- Complete items are determined by the items of the response. -/
theorem items_eq {output : List ResponsesOutput} :
    ∀ {items items' : List ItemView}, (∀ v ∈ items, v.closed = true ∧ v.done = true) →
      (∀ v ∈ items', v.closed = true ∧ v.done = true) →
      List.Forall₂ (Carries codec) output (items.map (·.deltas)) →
      List.Forall₂ (Carries codec) output (items'.map (·.deltas)) → items = items' := by
  induction output with
  | nil =>
      intro items items' _ _ h h'
      cases items with
      | nil =>
          cases items' with
          | nil => rfl
          | cons v' items' => cases h'
      | cons v items => cases h
  | cons o output ih =>
      intro items items' hdone hdone' h h'
      cases items with
      | nil => cases h
      | cons v items =>
          cases items' with
          | nil => cases h'
          | cons v' items' =>
              obtain ⟨ho, hrest⟩ := List.forall₂_cons.mp h
              obtain ⟨ho', hrest'⟩ := List.forall₂_cons.mp h'
              have hv := hdone v List.mem_cons_self
              have hv' := hdone' v' List.mem_cons_self
              have heq : v = v' := by
                cases v
                cases v'
                dsimp only at hv hv' ho ho'
                rw [hv.1, hv.2, hv'.1, hv'.2, carries_inj ho ho']
              rw [heq, ih (fun w hw => hdone w (List.mem_cons_of_mem v hw))
                (fun w hw => hdone' w (List.mem_cons_of_mem v' hw)) hrest hrest']

end weights

end MaxApi.Responses
