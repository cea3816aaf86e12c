import BoolFormula.Diagnostic.Error
import BoolFormula.Text.Quoted

/-! What a run may tell about itself. A traced parser tells each of its attempts
once it is over, and an entry point tells each text it refuses. Whether anybody
listens is up to the monad: `Id` is deaf, `Traced` keeps the events in order. -/

namespace BoolFormula

inductive Event
  /-- The parser `name` was run at `start`; if it matched, with this value, written out, and
  this many code points consumed. -/
  | attempt (name : String) (start : Cursor) (outcome : Option (String × Nat))
  /-- The text was refused, for the reason given if it is to be told. -/
  | refusal (text : String) (reason : Option ParseError)

namespace Event

/-- The event as a line of a log, with its level in front. -/
def line : Event → String
  | attempt name start outcome =>
    "TRACE [" ++ name ++ ":" ++ toString start.line ++ ":" ++ toString start.col ++ "] " ++
      match outcome with
      | none => "no match"
      | some (value, count) => "matched " ++ value ++ ", " ++ toString count ++ " consumed"
  | refusal text reason =>
    "DEBUG parse of " ++ Text.quoted text ++ " failed" ++
      match reason with
      | none => ""
      | some e => ": " ++ e.message

end Event

/-- Monads that can be told of events. An event is made only if it is listened to. -/
class MonadTrace (m : Type → Type) where
  tell : (Unit → Event) → m Unit

@[always_inline, inline]
instance : MonadTrace Id := ⟨fun _ => ()⟩

/-- Events in order, put together in constant time. -/
inductive Log
  | empty
  | event (e : Event)
  | append (first second : Log)

namespace Log

/-- The events of the log, after those in `before`. -/
def pushOnto (before : Array Event) : Log → Array Event
  | empty => before
  | event e => before.push e
  | append first second => second.pushOnto (first.pushOnto before)

/-- The events of the log, the earliest first. -/
def toArray (l : Log) : Array Event := l.pushOnto #[]

/-- One log after the other. Nothing is put together with an empty one. -/
def concat : Log → Log → Log
  | empty, second => second
  | first, empty => first
  | first, second => append first second

theorem pushOnto_eq (before : Array Event) (l : Log) : l.pushOnto before = before ++ l.toArray := by
  induction l generalizing before with
  | empty => simp [pushOnto, toArray]
  | event e => simp [pushOnto, toArray]
  | append first second ih₁ ih₂ =>
    simp only [toArray, pushOnto]
    rw [ih₂, ih₁, ih₂ (first.pushOnto #[])]
    simp [toArray]

@[simp] theorem toArray_empty : empty.toArray = #[] := rfl

@[simp] theorem toArray_event (e : Event) : (event e).toArray = #[e] := rfl

@[simp] theorem toArray_append (first second : Log) :
    (append first second).toArray = first.toArray ++ second.toArray :=
  pushOnto_eq first.toArray second

@[simp] theorem toArray_concat (first second : Log) :
    (first.concat second).toArray = first.toArray ++ second.toArray := by
  cases first <;> cases second <;> simp [concat]

end Log

/-- A value with the log of what led to it. -/
structure Traced (α : Type) where
  value : α
  log : Log

namespace Traced

instance : Monad Traced where
  pure a := ⟨a, .empty⟩
  bind x f := let y := f x.value; ⟨y.value, x.log.concat y.log⟩

instance : MonadTrace Traced := ⟨fun event => ⟨(), .event (event ())⟩⟩

/-- The events that led to the value, the earliest first. -/
def events {α : Type} (x : Traced α) : Array Event := x.log.toArray

variable {α β : Type}

@[simp] theorem value_pure (a : α) : (pure a : Traced α).value = a := rfl

@[simp] theorem value_bind (x : Traced α) (f : α → Traced β) :
    (x >>= f).value = (f x.value).value := rfl

@[simp] theorem events_pure (a : α) : (pure a : Traced α).events = #[] := rfl

@[simp] theorem events_bind (x : Traced α) (f : α → Traced β) :
    (x >>= f).events = x.events ++ (f x.value).events := Log.toArray_concat _ _

@[simp] theorem events_tell (event : Unit → Event) :
    (MonadTrace.tell event : Traced Unit).events = #[event ()] := rfl

end Traced

variable {m : Type → Type} [Monad m] [MonadTrace m] {α : Type}

/-- Runs `p`, then tells of the attempt under `name`. The answer is that of `p`. -/
@[inline] def ParserT.traced (name : String) (write : α → String) (p : ParserT m α) :
    ParserT m α := fun c => do
  let r ← p c
  MonadTrace.tell fun _ =>
    .attempt name c (r.value.map fun a => (write a, r.rest.offset - c.offset))
  pure r

end BoolFormula
