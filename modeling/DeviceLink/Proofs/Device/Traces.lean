import DeviceLink.Device.Action

/-!
Traces: the messages of a run, in order, each with what came of it. They are recorded at the
transport, by one that carries the same messages and keeps a journal beside its state, so that
nothing that reaches the transport is left out (`Action.run_recorded`). A single exchange has one of
three traces (`Action.exchange_cases`).
-/

set_option autoImplicit false
set_option relaxedAutoImplicit false

namespace DeviceLink

open Wire (Payload)

/-- A message at a transport, with what came of it. -/
inductive Message where
  | sent (endpoint : EndpointId) (payload : Payload) (outcome : Except TransportError Unit)
  | received (endpoint : EndpointId) (span : Duration) (outcome : Except TransportError Payload)

def Message.sending? : Message → Option (EndpointId × Payload)
  | sent endpoint payload _ => some (endpoint, payload)
  | received .. => none

def sendings (trace : List Message) : List (EndpointId × Payload) :=
  trace.filterMap Message.sending?

@[simp] theorem sendings_append (trace later : List Message) :
    sendings (trace ++ later) = sendings trace ++ sendings later :=
  List.filterMap_append

def Transport.recorded {σ : Type} (link : Transport σ) : Transport (σ × List Message) where
  send endpoint payload s :=
    let answer := link.send endpoint payload s.1
    (answer.1, answer.2, s.2 ++ [.sent endpoint payload answer.1])
  receive endpoint span s :=
    let answer := link.receive endpoint span s.1
    (answer.1, answer.2, s.2 ++ [.received endpoint span answer.1])
  timeout := link.timeout

namespace Action

variable {α β σ : Type}

/-- The messages that an action exchanges over a transport, in order. -/
def trace (link : Transport σ) (a : Action α) (s : σ) : List Message :=
  (a.run link.recorded (s, [])).2.2

theorem run_recorded (link : Transport σ) (a : Action α) (s : σ) (journal : List Message) :
    a.run link.recorded (s, journal) =
      ((a.run link s).1, (a.run link s).2, journal ++ a.trace link s) := by
  induction a generalizing s journal with
  | finish result => simp [trace, run]
  | send endpoint payload next ih =>
    simp only [trace, run, Transport.recorded] at ih ⊢
    rw [ih, ih _ _ ([] ++ _)]
    simp
  | receive endpoint next ih =>
    simp only [trace, run, Transport.recorded] at ih ⊢
    rw [ih, ih _ _ ([] ++ _)]
    simp

variable {link : Transport σ} {s : σ}

@[simp] theorem trace_finish (result : Except DeviceError α) :
    (finish result).trace link s = [] := rfl

theorem trace_send (endpoint : EndpointId) (payload : Payload)
    (next : Except TransportError Unit → Action α) : (send endpoint payload next).trace link s =
      .sent endpoint payload (link.send endpoint payload s).1 ::
        (next (link.send endpoint payload s).1).trace link (link.send endpoint payload s).2 := by
  change ((next _).run link.recorded (_, [] ++ [_])).2.2 = _
  rw [run_recorded]
  rfl

private theorem trace_receive (endpoint : EndpointId)
    (next : Except TransportError Payload → Action α) : (receive endpoint next).trace link s =
      .received endpoint link.timeout (link.receive endpoint link.timeout s).1 ::
        (next (link.receive endpoint link.timeout s).1).trace link
          (link.receive endpoint link.timeout s).2 := by
  change ((next _).run link.recorded (_, [] ++ [_])).2.2 = _
  rw [run_recorded]
  rfl

theorem trace_bind (a : Action α) (f : α → Action β) : (a >>= f).trace link s =
    a.trace link s ++ match a.run link s with
      | (.ok value, s') => (f value).trace link s'
      | (.error _, _) => [] := by
  change (a.andThen f).trace link s = _
  induction a generalizing s with
  | finish result => cases result <;> rfl
  | send endpoint payload next ih =>
    rw [andThen, trace_send, trace_send, ih, run]
    rfl
  | receive endpoint next ih =>
    rw [andThen, trace_receive, trace_receive, ih, run]
    rfl

@[simp] theorem trace_bind_done (a : Action α) (f : α → β) :
    (a >>= fun value => done (f value)).trace link s = a.trace link s := by
  rw [trace_bind]
  rcases a.run link s with ⟨error | value, s'⟩ <;> exact List.append_nil _

theorem trace_attempt (a : Action α) : a.attempt.trace link s = a.trace link s := by
  induction a generalizing s with
  | finish result => rfl
  | send endpoint payload next ih => rw [attempt, trace_send, trace_send, ih]
  | receive endpoint next ih => rw [attempt, trace_receive, trace_receive, ih]

theorem run_attempt (a : Action α) :
    a.attempt.run link s = (.ok (a.run link s).1, (a.run link s).2) := by
  induction a generalizing s with
  | finish result => rfl
  | send endpoint payload next ih => exact ih _
  | receive endpoint next ih => exact ih _

/-- One exchange ends in three ways: the payload is not taken, the answer does not come, or it comes
and has a meaning. -/
theorem exchange_cases {a : Action α} {endpoint : EndpointId} {payload : Payload}
    {meaning : Payload → Except DeviceError α}
    (shape : a = exchange endpoint payload >>= fun answer => ofExcept (meaning answer))
    (link : Transport σ) (s : σ) :
    (∃ error s', a.run link s = (.error (.transport error), s') ∧
      a.trace link s = [.sent endpoint payload (.error error)]) ∨
    (∃ error s', a.run link s = (.error (.transport error), s') ∧
      a.trace link s =
        [.sent endpoint payload (.ok ()), .received endpoint link.timeout (.error error)]) ∨
    ∃ answer s', a.run link s = (meaning answer, s') ∧
      a.trace link s =
        [.sent endpoint payload (.ok ()), .received endpoint link.timeout (.ok answer)] := by
  obtain rfl : a = send endpoint payload _ := shape
  rw [trace_send, run]
  rcases link.send endpoint payload s with ⟨error | ⟨⟩, s₁⟩
  · exact .inl ⟨error, s₁, rfl, rfl⟩
  · refine .inr ?_
    change (∃ error s', (receive endpoint _).run link s₁ = _ ∧
      _ :: (receive endpoint _).trace link s₁ = _) ∨
      ∃ answer s', (receive endpoint _).run link s₁ = _ ∧
        _ :: (receive endpoint _).trace link s₁ = _
    rw [trace_receive, run]
    rcases link.receive endpoint link.timeout s₁ with ⟨error | answer, s₂⟩
    · exact .inl ⟨error, s₂, rfl, rfl⟩
    · exact .inr ⟨answer, s₂, rfl, rfl⟩

end Action

end DeviceLink
