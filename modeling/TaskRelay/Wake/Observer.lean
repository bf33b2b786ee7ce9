import TaskRelay.Wake.Registry

/-!
# Observers

Callbacks that leave a note of each pointer they are called with. Some do more before they return.
-/

namespace TaskRelay

inductive Observer where
  | first
  | second
  /-- Notes the count of deliveries, then gives its place to the first observer. -/
  | successor
  /-- Notes the count of deliveries, then notifies half its address unless that is zero. -/
  | halving
deriving DecidableEq

namespace Observer

def label : Observer → String
  | .first => "A:"
  | .second => "B:"
  | .successor => "C:"
  | .halving => "N:"

def countText (n : Nat) : String := ":delivered=" ++ String.ofList (Text.decimal n)

def callback (o : Observer) : Callback := fun wake =>
  let entry := o.label ++ wake.text
  match o with
  | .first | .second => .note entry .finish
  | .successor =>
    .delivered fun n => .note (entry ++ countText n) <|
      .install (fun wake => .note ("A:" ++ wake.text) .finish) .finish
  | .halving =>
    .delivered fun n => .note (entry ++ countText n) <|
      match wake.half? with
      | some half => .notify half fun _ => .finish
      | none => .finish

end Observer

end TaskRelay
