import TriadMesh.Text.Hidden

/-!
# Texts as inspection shows them

Inspection puts texts and characters in quotes and escapes the characters that do not show.
-/

namespace TriadMesh.Text

def hexDigits (n : Nat) : List Char := Nat.toDigits 16 n

/-- A character as it stands between the given quotes. -/
def inspectChar (quote c : Char) : List Char :=
  if c = quote then ['\\', quote]
  else if c = '\\' then ['\\', '\\']
  else if c.toNat = 0 then ['\\', '0']
  else if c = '\t' then ['\\', 't']
  else if c = '\n' then ['\\', 'n']
  else if c = '\r' then ['\\', 'r']
  else if isHidden c then ['\\', 'u', '\x7b'] ++ hexDigits c.toNat ++ ['\x7d']
  else [c]

def inspect (s : String) : String := String.ofList ('"' :: s.toList.flatMap (inspectChar '"') ++ ['"'])

def inspectSingle (c : Char) : String := String.ofList ('\x27' :: inspectChar '\x27' c ++ ['\x27'])

end TriadMesh.Text
