import Promotions.Rule.Compile
import Promotions.RuleBook.Basic

/-!
# Changing a rule book

Every change goes through `publish`: the rules are put in order again, and the version goes up by
one. Rules of equal priority keep the order in which they came in. A change that fails gives back
the book as it was.
-/

namespace Promotions.RuleBook

/-- The rules by falling priority, those of equal priority in the order given. -/
def byPriority (rules : List Rule) : List Rule :=
  rules.mergeSort fun a b => b.priority ≤ a.priority

def publish (book : RuleBook) (rules : List Rule) : RuleBook :=
  { book with version := book.version + 1, rules := byPriority rules }

def add (book : RuleBook) (d : RuleDefinition) : RuleBook × Except RuleError Unit :=
  match d.compile book.settings with
  | .error e => (book, .error e)
  | .ok rule =>
    if book.contains rule.id then (book, .error (.duplicateRule rule.id))
    else (book.publish (book.rules ++ [rule]), .ok ())

/-- Adds all the rules or none. No rules are no change. -/
def addAll (book : RuleBook) (ds : List RuleDefinition) : RuleBook × Except RuleError Unit :=
  match RuleDefinition.compileAll book.settings [] ds with
  | .error e => (book, .error e)
  | .ok batch =>
    match batch.find? (book.contains ·.id) with
    | some rule => (book, .error (.duplicateRule rule.id))
    | none => (if batch.isEmpty then book else book.publish (book.rules ++ batch), .ok ())

/-- Puts a rule in the place of the one with its id, as the newest rule. -/
def replace (book : RuleBook) (d : RuleDefinition) : RuleBook × Except RuleError Unit :=
  match d.compile book.settings with
  | .error e => (book, .error e)
  | .ok rule =>
    if book.contains rule.id then
      (book.publish (book.rules.eraseP (·.id = rule.id) ++ [rule]), .ok ())
    else (book, .error (.unknownRule rule.id))

/-- Takes the rule out. The answer tells whether there was one. -/
def remove (book : RuleBook) (id : String) : RuleBook × Bool :=
  if book.contains id then (book.publish (book.rules.eraseP (·.id = id)), true) else (book, false)

/-- Turns the rule on or off. The answer tells whether there is one. -/
def setEnabled (book : RuleBook) (id : String) (enabled : Bool) : RuleBook × Bool :=
  if book.contains id then
    (book.publish (book.rules.map fun rule =>
      if rule.id = id then { rule with enabled := enabled } else rule), true)
  else (book, false)

end Promotions.RuleBook
