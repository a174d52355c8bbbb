import CodeWide.Lib.Json

/-!
# The device's JSON texts

What the device uses of `org.json`: the texts themselves are a parameter, and the readers of fields
follow it.
-/

namespace CodeWide.Device

open Lib

structure OrgJson where
  value : String → Option Json
  text : Json → String

namespace OrgJson

def array (org : OrgJson) (text : String) : Option (List Json) :=
  (org.value text).bind Json.asArr?

def object (org : OrgJson) (text : String) : Option Json :=
  (org.value text).filter Json.isObj

end OrgJson

section Fields

variable (org : OrgJson)

def jsonText : Option Json → String
  | none => "null"
  | some .null => "null"
  | some (.str s) => s
  | some v => org.text v

def nativeServerRequestKey (value : Option Json) : String :=
  match value with
  | some (.int n) => "number:" ++ org.text (.int n)
  | some (.float bits) => "number:" ++ org.text (.float bits)
  | value => "string:" ++ jsonText org value

def optString (object : Json) (k : String) : String :=
  match object.get? k with
  | none => ""
  | some v => jsonText org (some v)

def optJSONObject (object : Json) (k : String) : Option Json :=
  (object.get? k).filter Json.isObj

def optJSONArray (object : Json) (k : String) : Option (List Json) :=
  (object.get? k).bind Json.asArr?

end Fields

def isKotlinWhitespace (c : Char) : Bool :=
  (0x9 ≤ c.toNat && c.toNat ≤ 0xD) || (0x1C ≤ c.toNat && c.toNat ≤ 0x20) || c.toNat == 0xA0 ||
    c.toNat == 0x1680 || (0x2000 ≤ c.toNat && c.toNat ≤ 0x200A) || c.toNat == 0x2028 ||
    c.toNat == 0x2029 || c.toNat == 0x202F || c.toNat == 0x205F || c.toNat == 0x3000

def isNotBlank (s : String) : Bool := s.toList.any (fun c => !isKotlinWhitespace c)

end CodeWide.Device
