import SceneScript.Json.Basic
import SceneScript.Number.Shortest
import SceneScript.Text.Hex

/-! # JSON text

A value on one line without blanks. Quotes, backslashes and control characters are
escaped; all other characters stand for themselves. A decimal that is not finite has no
JSON form and is written as null. -/

namespace SceneScript.Json

def escapeChar (c : Char) : List Char :=
  if c = '"' then ['\\', '"']
  else if c = '\\' then ['\\', '\\']
  else if c = '\n' then ['\\', 'n']
  else if c = '\r' then ['\\', 'r']
  else if c = '\t' then ['\\', 't']
  else if c.toNat < 0x20 then
    ['\\', 'u', '0', '0', Text.hexDigit (c.toNat / 16), Text.hexDigit (c.toNat % 16)]
  else [c]

def pushString (out s : String) : String :=
  (s.foldl (fun acc c => (escapeChar c).foldl String.push acc) (out.push '"')).push '"'

def floatText (x : Binary64) : String :=
  if x.exponentField = 2047 then "null" else x.text

mutual

def pushValue (out : String) : Json → String
  | .null => out ++ "null"
  | .bool b => out ++ (if b then "true" else "false")
  | .int n => out ++ toString n
  | .float x => out ++ floatText x
  | .str s => pushString out s
  | .arr items => (pushItems (out.push '[') true items).push ']'
  | .obj fields => (pushFields (out.push '\x7b') true fields).push '\x7d'

/-- Append array items, a comma before each but the first. -/
def pushItems (out : String) (first : Bool) : List Json → String
  | [] => out
  | v :: rest => pushItems (pushValue (if first then out else out.push ',') v) false rest

def pushFields (out : String) (first : Bool) : List (String × Json) → String
  | [] => out
  | (name, v) :: rest =>
    let named := pushString (if first then out else out.push ',') name
    pushFields (pushValue (named.push ':') v) false rest

end

/-- The text of a value. -/
def render (j : Json) : String := pushValue "" j

end SceneScript.Json
