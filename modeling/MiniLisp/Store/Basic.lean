import MiniLisp.Config
import MiniLisp.Error

/-!
The store of frames. A frame binds names to values and links to the frame around it; a frame
without one carries the settings. Frames are only ever added, and a definition changes one frame.
-/

namespace MiniLisp

inductive Link where
  | root (config : Config)
  | child (outer : FrameId)
deriving DecidableEq

/-- Bindings are kept in the order of first definition. -/
structure Frame where
  bindings : List (String × Value)
  link : Link

/-- Binds a name in place, or at the end when it is new. -/
def setBinding (name : String) (v : Value) : List (String × Value) → List (String × Value)
  | [] => [(name, v)]
  | (n, w) :: rest => if n = name then (n, v) :: rest else (n, w) :: setBinding name v rest

namespace Frame

def get? (f : Frame) (name : String) : Option Value := f.bindings.lookup name

def define (f : Frame) (name : String) (v : Value) : Frame :=
  { f with bindings := setBinding name v f.bindings }

def outer? (f : Frame) : Option FrameId :=
  match f.link with
  | .root _ => none
  | .child outer => some outer

def config? (f : Frame) : Option Config :=
  match f.link with
  | .root config => some config
  | .child _ => none

end Frame

structure Store where
  frames : Array Frame

namespace Store

def empty : Store := ⟨#[]⟩

def get? (s : Store) (id : FrameId) : Option Frame := s.frames[id]?

def size (s : Store) : Nat := s.frames.size

/-- Adds a frame; its number is the size of the store before. -/
def push (s : Store) (f : Frame) : Store := ⟨s.frames.push f⟩

def define (s : Store) (id : FrameId) (name : String) (v : Value) : Store :=
  ⟨s.frames.modify id fun f => f.define name v⟩

def chainUpTo (s : Store) : Nat → FrameId → List FrameId
  | 0, _ => []
  | n + 1, id => match s.get? id with
    | none => []
    | some f => match f.outer? with
      | none => [id]
      | some outer => id :: s.chainUpTo n outer

/-- The frames from `id` outward. An outer frame is older, so `id + 1` steps reach the end. -/
def chain (s : Store) (id : FrameId) : List FrameId := s.chainUpTo (id + 1) id

/-- The value that a frame itself gives a name. -/
def local? (s : Store) (id : FrameId) (name : String) : Option Value :=
  (s.get? id).bind fun f => f.get? name

/-- The nearest frame of the chain that binds a name. -/
def find? (s : Store) (id : FrameId) (name : String) : Option FrameId :=
  (s.chain id).find? fun i => (s.local? i name).isSome

def lookup? (s : Store) (id : FrameId) (name : String) : Option Value :=
  (s.find? id name).bind fun i => s.local? i name

def lookup (s : Store) (id : FrameId) (name : String) : Except Error Value :=
  match s.lookup? id name with
  | some v => .ok v
  | none => fail (.unbound name)

def config (s : Store) (id : FrameId) : Config :=
  ((s.chain id).findSome? fun i => (s.get? i).bind Frame.config?).getD {}

/-- Adds a frame without bindings. Only a frame without an outer frame takes settings. -/
def create (s : Store) (outer : Option FrameId) (config : Option Config) :
    Except ConfigError (FrameId × Store) :=
  match outer, config with
  | none, c => .ok (s.size, s.push ⟨[], .root (c.getD {})⟩)
  | some o, none => .ok (s.size, s.push ⟨[], .child o⟩)
  | some _, some _ => .error .notAtRoot

def bind (s : Store) (id : FrameId) (name v : Value) : Except Error Store :=
  match name.expectSymbol with
  | .ok n => .ok (s.define id n v)
  | .error e => .error e

end Store

end MiniLisp
