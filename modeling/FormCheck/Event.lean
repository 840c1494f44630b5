import FormCheck.Email.Pattern

/-!
# Events

Compiling a schema and validating a record report what a maintainer of the form may want to know.
A `Traced` value carries the events of its computation in order.
-/
namespace FormCheck

/-- How much an event matters. -/
inductive Level where
  | debug
  | warn
deriving DecidableEq

/-- Something worth reporting. -/
inductive Event where
  /-- A token of a rule string is not a rule. -/
  | unrecognizedRule (token : String)
  /-- A field name occurred before; the later definition counts. -/
  | duplicateField (name : String)
  /-- A record has a value that no field of the schema names. -/
  | unmatchedValue (name : String)
  /-- A schema was compiled to this many fields. -/
  | compiled (fields : Nat) (email : EmailPattern)
  /-- A record was checked against this many fields. -/
  | validated (fields : Nat) (errors : Nat)
deriving DecidableEq

namespace Event

def level : Event → Level
  | duplicateField _ => .warn
  | _ => .debug

/-- The message and the details of an event. -/
def message : Event → String
  | unrecognizedRule token => "ignoring unrecognized rule token=" ++ token
  | duplicateField name => "duplicate field name, later definition wins field=" ++ name
  | unmatchedValue name => "record value has no matching schema field field=" ++ name
  | compiled fields email =>
    "compiled form schema fields=" ++ Nat.repr fields ++ " email=" ++ email.name
  | validated fields errors =>
    "validated record fields=" ++ Nat.repr fields ++ " errors=" ++ Nat.repr errors

/-- The line that reports an event. -/
def line (e : Event) : String :=
  (match e.level with
    | .debug => "DEBUG "
    | .warn => "WARN ") ++ e.message

end Event

/-- A value and the events of its computation. -/
structure Traced (α : Type) where
  value : α
  events : List Event
deriving DecidableEq

namespace Traced

/-- A computation that only reports. -/
def emit (e : Event) : Traced Unit := ⟨(), [e]⟩

/-- A computation that reports several events. -/
def emitAll (events : List Event) : Traced Unit := ⟨(), events⟩

instance : Monad Traced where
  pure a := ⟨a, []⟩
  bind x f := ⟨(f x.value).value, x.events ++ (f x.value).events⟩

variable {α β : Type}

@[simp] theorem value_pure (a : α) : (pure a : Traced α).value = a := rfl

@[simp] theorem events_pure (a : α) : (pure a : Traced α).events = [] := rfl

@[simp] theorem value_bind (x : Traced α) (f : α → Traced β) :
    (x >>= f).value = (f x.value).value := rfl

@[simp] theorem events_bind (x : Traced α) (f : α → Traced β) :
    (x >>= f).events = x.events ++ (f x.value).events := rfl

@[simp] theorem events_emit (e : Event) : (emit e).events = [e] := rfl

@[simp] theorem events_emitAll (events : List Event) : (emitAll events).events = events := rfl

instance : LawfulMonad Traced := by
  refine LawfulMonad.mk' Traced ?_ ?_ ?_
  · intro α x
    change (⟨x.value, x.events ++ []⟩ : Traced α) = x
    rw [List.append_nil]
  · intro α β a f
    rfl
  · intro α β γ x f g
    change (⟨_, _ ++ _ ++ _⟩ : Traced γ) = ⟨_, _ ++ (_ ++ _)⟩
    rw [List.append_assoc]
    rfl

@[simp] theorem value_map (f : α → β) (x : Traced α) : (f <$> x).value = f x.value := rfl

@[simp] theorem events_map (f : α → β) (x : Traced α) : (f <$> x).events = x.events :=
  List.append_nil x.events

/-- Going through a list, the value depends on the values of the steps only. -/
theorem value_foldlM (step : β → α → Traced β) (l : List α) (b : β) :
    (l.foldlM step b).value = l.foldl (fun b a => (step b a).value) b := by
  induction l generalizing b with
  | nil => rfl
  | cons a l ih => rw [List.foldlM_cons, value_bind, ih, List.foldl_cons]

/-- The values of the steps, one for each item. -/
theorem value_mapM (f : α → Traced β) (l : List α) :
    (l.mapM f).value = l.map fun a => (f a).value := by
  induction l with
  | nil => rfl
  | cons a l ih => rw [List.mapM_cons, value_bind, value_bind, value_pure, ih, List.map_cons]

/-- The events of the steps in order. -/
theorem events_mapM (f : α → Traced β) (l : List α) :
    (l.mapM f).events = l.flatMap fun a => (f a).events := by
  induction l with
  | nil => rfl
  | cons a l ih =>
    rw [List.mapM_cons, events_bind, events_bind, events_pure, List.append_nil, ih,
      List.flatMap_cons]

end Traced
end FormCheck
