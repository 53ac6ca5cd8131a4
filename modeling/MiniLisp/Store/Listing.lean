import MiniLisp.Store.Basic

/-!
Listings of frames: the bindings between braces, names as they are and values inspected.
-/

namespace MiniLisp

def Frame.listing (f : Frame) : String :=
  let entries := f.bindings.map fun b => b.1 ++ ": " ++ b.2.inspect
  "\x7b" ++ String.intercalate ", " entries ++ "\x7d"

def Frame.printable (f : Frame) : Bool := Value.allPrintable (f.bindings.map Prod.snd)

namespace Store

/-- A frame's listing, with an arrow when there is a frame around it. -/
def listing (s : Store) (id : FrameId) : Except Error String :=
  match s.get? id with
  | none => .ok ""
  | some f =>
      if f.printable then
        match f.outer? with
        | some _ => .ok (f.listing ++ " -> ...")
        | none => .ok f.listing
      else .error .integerText

/-- The bindings of a frame, apart from built-in procedures under their own names. -/
def userBindings (s : Store) (id : FrameId) : List (String × Value) :=
  match s.get? id with
  | none => []
  | some f => f.bindings.filter fun b => match b.2 with
    | .native p => !decide (p.name = b.1)
    | _ => true

def chainListing (s : Store) (id : FrameId) : Except Error String :=
  let frames := (s.chain id).filterMap s.get?
  if frames.all Frame.printable then
    .ok ("<Environment chain: " ++ String.intercalate " -> " (frames.map Frame.listing) ++ ">")
  else .error .integerText

end Store

end MiniLisp
