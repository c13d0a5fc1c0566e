import GridRobot.Document.Basic

/-!
# Why a world cannot be loaded

The causes that documents and legacy buffers share, and the words in which each is reported.
-/

set_option autoImplicit false

namespace GridRobot

/-- One of the two buffers of a legacy world. -/
inductive LegacyBuffer where
  | world
  | limits
  deriving DecidableEq, Repr

/-- The name of a buffer in reports. -/
def LegacyBuffer.title : LegacyBuffer → String
  | world => "world buffer"
  | limits => "limits buffer"

/-- Why a world cannot be loaded. -/
inductive LoadError where
  /-- The buffer has fewer words than any header. -/
  | tooShort (buffer : LegacyBuffer) (expected actual : Nat)
  | badMagic
  /-- The header announces more records than the buffer holds. -/
  | truncated (buffer : LegacyBuffer) (expected actual : Nat)
  | oddLength (bytes : Nat)
  | invalidWall (segment : Segment)
  | invalidDimensions (width height : Nat)
  | invalidCoordinate (x y : Nat)
  | invalidOrientation (word : Nat)
  /-- The text is not JSON or does not describe a world. -/
  | malformed
  deriving DecidableEq, Repr

namespace LoadError

/-- A corner coordinate that may be absent. -/
def cornerText : Option UInt32 → String
  | some n => s!"Some({n.toNat})"
  | none => "None"

/-- The words for an error. -/
def message : LoadError → String
  | tooShort buffer expected actual =>
    buffer.title ++ s!" too short: expected at least {expected} words, got {actual}"
  | badMagic => "invalid magic signature"
  | truncated buffer expected actual =>
    buffer.title ++ s!" truncated: header announces {expected} words, only {actual} present"
  | oddLength bytes => s!"odd byte length {bytes} for a 16-bit word buffer"
  | invalidWall s =>
    s!"invalid wall segment ({s.x1.toNat}, {s.y1.toNat}) - (" ++ cornerText s.x2 ++ ", " ++
      cornerText s.y2 ++ ")"
  | invalidDimensions width height => s!"invalid world dimensions {width}x{height}"
  | invalidCoordinate x y => s!"coordinate ({x}, {y}) outside the world"
  | invalidOrientation word => s!"invalid value for orientation: {word}"
  | malformed => "malformed world document:"

end LoadError

end GridRobot
