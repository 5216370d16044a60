import Mathlib.Data.List.Basic

set_option autoImplicit false

namespace CultivationMotain.Foundation

-- A URL as the sources use it: path operations read and change the last
-- component only, everything before the path is carried along unread.
structure URL where
  site : String
  pathComponents : List String
deriving DecidableEq, Repr

-- NSURL.lastPathComponent is optional, URL.lastPathComponent is not.
def URL.lastPathComponent? (url : URL) : Option String := url.pathComponents.getLast?

def URL.lastPathComponent (url : URL) : String := url.lastPathComponent?.getD ""

def URL.deletingLastPathComponent (url : URL) : URL :=
  { url with pathComponents := url.pathComponents.dropLast }

def URL.appendingPathComponent (url : URL) (component : String) : URL :=
  { url with pathComponents := url.pathComponents ++ [component] }

@[simp] theorem last_appending (url : URL) (component : String) :
    (url.appendingPathComponent component).lastPathComponent? = some component := by
  simp [URL.lastPathComponent?, URL.appendingPathComponent]

theorem appending_injective (url : URL) (a b : String)
    (same : url.appendingPathComponent a = url.appendingPathComponent b) : a = b := by
  have last := congrArg URL.lastPathComponent? same
  simpa only [last_appending, Option.some.injEq] using last

-- NSString.appendingPathComponent on a path text.
def appendingPathComponent (path component : String) : String :=
  if path = "" then component
  else if path.endsWith "/" then path ++ component
  else path ++ "/" ++ component

-- fileURL(withPath:) resolves a path that does not start at the root against
-- the current directory of the process.
def fileURL (currentDirectory : List String) (path : String) : URL where
  site := "file:///"
  pathComponents :=
    (if path.startsWith "/" then [] else currentDirectory) ++ (path.splitOn "/").filter (· ≠ "")

-- Unicode.Scalar.escaped(asASCII: false), as String.debugDescription uses it.
def escaped (scalar : Char) : String :=
  if scalar.toNat = 0x5C then "\\\\"
  else if scalar.toNat = 0x27 then "\\" ++ scalar.toString
  else if scalar.toNat = 0x22 then "\\\""
  else if scalar.toNat = 0 then "\\0"
  else if scalar.toNat = 0x0A then "\\n"
  else if scalar.toNat = 0x0D then "\\r"
  else if scalar.toNat = 0x09 then "\\t"
  else if scalar.toNat < 0x20 ∨ scalar.toNat = 0x7F then
    let digits := String.ofList ((Nat.toDigits 16 scalar.toNat).map Char.toUpper)
    "\\u\x7b" ++ (if digits.length < 2 then "0" ++ digits else digits) ++ "\x7d"
  else scalar.toString

def debugDescription (text : String) : String :=
  "\"" ++ String.join (text.toList.map escaped) ++ "\""

-- String(describing:) of an optional text keeps the Optional wrapper.
def describing : Option String → String
  | none => "nil"
  | some text => "Optional(" ++ debugDescription text ++ ")"

end CultivationMotain.Foundation
