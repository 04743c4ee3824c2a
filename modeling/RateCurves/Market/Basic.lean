import RateCurves.Bootstrap.Solve
import RateCurves.Observation.Lazy
import RateCurves.Observation.Registry

/-!
# The state of a market

Quotes, the evaluation date, flags and lazily bootstrapped curves. Quotes and the date have
observers, which are flags or curves: a change raises the flags and makes the curves stale. Nothing
in a market ever goes away, so every observer stays alive.
-/

namespace RateCurves

variable {α : Type} [Scalar α]

abbrev QuoteId := Nat

abbrev FlagId := Nat

abbrev CurveId := Nat

/-- Who is told about a change. -/
inductive Observer where
  | flag (id : FlagId)
  | curve (id : CurveId)
  deriving DecidableEq

/-- A market value that may be missing. -/
structure Quote (α : Type) where
  value : Option α
  observers : Registry Observer := {}

/-- The date on which everything is evaluated, and the dates to restore when scopes end, the newest
scope first. -/
structure EvaluationDate where
  current : Option Date := none
  observers : Registry Observer := {}
  scopes : List (Option Date) := []

structure LazyCurve (α : Type) [Scalar α] where
  spec : CurveSpec QuoteId α
  cell : LazyCell (NodeCurve α) := {}

structure Market (α : Type) [Scalar α] where
  quotes : Array (Quote α) := #[]
  evaluation : EvaluationDate := {}
  flags : Array Bool := #[]
  curves : Array (LazyCurve α) := #[]

namespace Market

/-! ## Announcements -/

def alert (m : Market α) : Observer → Market α
  | .flag id => { m with flags := m.flags.modify id fun _ => true }
  | .curve id =>
    { m with curves := m.curves.modify id fun c => { c with cell := c.cell.invalidate } }

/-- Tells all observers of a list about a change, in order. -/
def announce (m : Market α) (observers : Registry Observer) : Market α :=
  observers.entries.foldl alert m

def enlist (observer : Observer) (observers : Registry Observer) : Registry Observer :=
  observers.register (fun _ => true) observer

/-! ## Flags -/

def addFlag (m : Market α) : FlagId × Market α :=
  (m.flags.size, { m with flags := m.flags.push false })

def raiseFlag (m : Market α) (id : FlagId) : Market α := m.alert (.flag id)

def flagIsRaised (m : Market α) (id : FlagId) : Bool := m.flags.getD id false

/-- Whether the flag was raised; it is lowered. -/
def takeFlag (m : Market α) (id : FlagId) : Bool × Market α :=
  (m.flagIsRaised id, { m with flags := m.flags.modify id fun _ => false })

/-! ## Quotes -/

def addQuote (m : Market α) (value : Option α) : QuoteId × Market α :=
  (m.quotes.size, { m with quotes := m.quotes.push { value } })

def read (m : Market α) (id : QuoteId) : Option α := m.quotes[id]?.bind (·.value)

/-- Both are missing, or they compare equal as numbers. -/
def sameValue : Option α → Option α → Bool
  | none, none => true
  | some a, some b => a == b
  | _, _ => false

def quoteObservers (m : Market α) (id : QuoteId) : Registry Observer :=
  match m.quotes[id]? with
  | some quote => quote.observers
  | none => {}

def announceQuote (m : Market α) (id : QuoteId) : Market α := m.announce (m.quoteObservers id)

/-- Gives a quote a value or none, and tells its observers if that differs from the value before. -/
def setQuote (m : Market α) (id : QuoteId) (value : Option α) : Market α :=
  let same := sameValue (m.read id) value
  let m := { m with quotes := m.quotes.modify id fun quote => { quote with value } }
  if same then m else m.announceQuote id

def watchQuote (m : Market α) (id : QuoteId) (observer : Observer) : Market α :=
  { m with quotes := m.quotes.modify id fun quote =>
      { quote with observers := enlist observer quote.observers } }

def unwatchQuote (m : Market α) (id : QuoteId) (observer : Observer) : Market α :=
  { m with quotes := m.quotes.modify id fun quote =>
      { quote with observers := quote.observers.unregister observer } }

def watchInstrument (m : Market α) (instrument : Instrument QuoteId α) (observer : Observer) :
    Market α :=
  instrument.sources.foldl (fun m id => m.watchQuote id observer) m

/-! ## The evaluation date -/

def announceDate (m : Market α) : Market α := m.announce m.evaluation.observers

/-- Sets or clears the evaluation date, and tells its observers if that changes it. -/
def replaceDate (m : Market α) (date : Option Date) : Market α :=
  let same := decide (m.evaluation.current = date)
  let m := { m with evaluation := { m.evaluation with current := date } }
  if same then m else m.announceDate

/-- Sets the date for the length of a scope, which remembers the date before. -/
def enterScope (m : Market α) (date : Date) : Market α :=
  let scopes := m.evaluation.current :: m.evaluation.scopes
  let m := m.replaceDate (some date)
  { m with evaluation := { m.evaluation with scopes } }

/-- Ends the newest scope, if there is one, and restores the date it remembers. -/
def leaveScope (m : Market α) : Market α :=
  match m.evaluation.scopes with
  | [] => m
  | before :: scopes =>
    { m with evaluation := { m.evaluation with scopes } }.replaceDate before

/-- Ends the oldest scope, if there is one, and restores the date it remembers. -/
def leaveOldestScope (m : Market α) : Market α :=
  match m.evaluation.scopes.getLast? with
  | none => m
  | some before =>
    { m with evaluation :=
        { m.evaluation with scopes := m.evaluation.scopes.dropLast } }.replaceDate before

def watchDate (m : Market α) (observer : Observer) : Market α :=
  { m with evaluation :=
      { m.evaluation with observers := enlist observer m.evaluation.observers } }

def unwatchDate (m : Market α) (observer : Observer) : Market α :=
  { m with evaluation :=
      { m.evaluation with observers := m.evaluation.observers.unregister observer } }

end Market

end RateCurves
