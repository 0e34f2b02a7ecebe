import Promotions.Callable.Builtin

/-!
# Resolvers

A resolver answers what the names in a condition stand for. A `Context` is the usual one: values and
callables by name, each name with the last one set, and the built-in callables behind them.
-/

namespace Promotions

structure Resolver where
  value? : String → Option Value
  callable? : String → Option Callable

/-- Values of its own, and the built-in callables. -/
def Resolver.ofValues (value? : String → Option Value) : Resolver := ⟨value?, Callable.builtin?⟩

structure Context where
  /-- The values by path, the newest first. -/
  values : List (String × Value)
  callables : List (String × Callable)

namespace Context

def empty : Context := ⟨[], []⟩

def insert (c : Context) (path : String) (v : Value) : Context :=
  { c with values := (path, v) :: c.values }

def define (c : Context) (name : String) (f : Callable) : Context :=
  { c with callables := (name, f) :: c.callables }

def value? (c : Context) (path : String) : Option Value := c.values.lookup path

/-- A callable of the context hides a built-in one of the same name. -/
def callable? (c : Context) (name : String) : Option Callable :=
  (c.callables.lookup name).or (Callable.builtin? name)

def resolver (c : Context) : Resolver := ⟨c.value?, c.callable?⟩

end Context

end Promotions
