import TaskRelay.Call.Program

/-!
# Layers around callables

A tracing layer captures a failure with its stack trace. A logging layer logs a failure and passes
it on. Neither touches a value or a panic, and a layered callable keeps its name.
-/

namespace TaskRelay

inductive Layer where
  /-- Captures failures with this trace. -/
  | traced (trace : String)
  | logged

namespace Callable

def traced (trace : String) (c : Callable) : Callable where
  name := c.name
  body args := (c.body args).andThen fun
    | .failure f => .finish (.failure (.captured trace f))
    | o => .finish o

def logged (c : Callable) : Callable where
  name := c.name
  body args := (c.body args).andThen fun
    | .failure f => .logFailure c.name f (.finish (.failure f))
    | o => .finish o

def layered (c : Callable) : Layer → Callable
  | .traced trace => c.traced trace
  | .logged => c.logged

/-- Puts layers around a callable, the first innermost. -/
def wrap (c : Callable) (layers : List Layer) : Callable := layers.foldl layered c

end Callable

end TaskRelay
