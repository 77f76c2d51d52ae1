import SchemaSync.Run.Event

/-! The progress of a run on the screen: a line for each event, and a bar for the steps. -/

namespace SchemaSync.CommandLine

def ellipsis : List Char := ['.', '.', '.']

/-- At most `limit` leading characters, or all but `-limit` characters if the limit is negative. -/
def upTo (limit : Int) (cs : List Char) : List Char :=
  if 0 ≤ limit then cs.take limit.toNat else cs.take (cs.length - limit.natAbs)

/-- A text of at most `limit` characters. A longer one ends in dots, if there is room for more than
dots. -/
def truncate (text : String) (limit : Int) : String :=
  let cs := text.toList
  if limit ≤ ellipsis.length ∨ (cs.length : Int) ≤ limit then String.ofList (upTo limit cs)
  else String.ofList (cs.take (limit.toNat - ellipsis.length) ++ ellipsis)

def labelWidth : Int := 64

def eventStyle : EventKind → String × String
  | .stage => ("title", "›")
  | .info => ("meta", " ")
  | .warning => ("warn", "⚠")
  | .statement => ("ok", "✓")
  | .failed => ("err", "✗")
  | .done => ("ok", "✓")

/-- The number of a step and of all steps, if neither is missing or zero. -/
def counter? (event : Event) : Option (Int × Int) := do
  let current ← event.current.filter (· ≠ 0)
  let total ← event.total.filter (· ≠ 0)
  return (current, total)

/-- The message of an event. That of a step is cut and numbered. -/
def eventMessage (event : Event) : String :=
  match event.kind, counter? event with
  | .statement, some (current, total) =>
    "[" ++ toString current ++ "/" ++ toString total ++ "] " ++ truncate event.message labelWidth
  | _, _ => event.message

def styled (style icon text : String) : String :=
  "[" ++ style ++ "]" ++ icon ++ "[/] " ++ text

/-- The line for an event. What looks like markup in its message is escaped. -/
def formatEvent (escape : String → String) (event : Event) : String :=
  let (style, icon) := eventStyle event.kind
  styled style icon (escape (eventMessage event))

/-- Whether an event has a line. Steps have one only in a verbose run. -/
def isShown (verbose : Bool) (event : Event) : Bool :=
  verbose || event.kind != .statement

structure Bar where
  description : String
  total : Int
  completed : Int
  deriving DecidableEq, Repr

/-- The bar after an event. It appears with the first step, whose number of all steps it keeps. -/
def Bar.after (bar : Option Bar) (event : Event) : Option Bar :=
  if event.kind = .statement then
    let total := match bar with
      | some bar => bar.total
      | none => max ((event.total.filter (· ≠ 0)).getD 1) 1
    some { description := truncate event.message labelWidth, total
           completed := event.current.getD 0 }
  else bar

end SchemaSync.CommandLine
