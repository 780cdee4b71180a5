import Mathlib.Init

/-!
# Object GUIDs

`ObjectGuid.h` and `ObjectGuid.cpp`: a GUID is its raw 64-bit value, empty when zero.
-/

namespace TrinityCore

/-- `ObjectGuid`, by its raw value. -/
abbrev ObjectGuid := UInt64

namespace ObjectGuid

variable (guid : ObjectGuid)

/-- `GetHigh`: sixteen bits for corpses and area triggers, twelve for the rest. -/
def getHigh : Nat :=
  let temp := (guid >>> 48).toNat
  if temp = 0xF101 ∨ temp = 0xF102 then temp else temp / 16

/-- `HasEntry`. -/
def hasEntry : Bool :=
  !([0x400, 0x000, 0xF10, 0xF101, 0x1FC, 0x1F4, 0x1F5].contains (getHigh guid))

/-- `IsPet`. -/
def isPet : Bool := getHigh guid == 0xF14

/-- `GetEntry`. -/
def getEntry : Nat :=
  if hasEntry guid then ((guid >>> 32) &&& 0xFFFFF).toNat else 0

/-- `GetCounter`. -/
def getCounter : Nat := (guid &&& 0xFFFFFFFF).toNat

/-- `GetTypeName`. -/
def getTypeName : String :=
  if guid == 0 then "None"
  else match getHigh guid with
    | 0x400 => "Item"
    | 0x000 => "Player"
    | 0xF11 => "Gameobject"
    | 0xF12 => "Transport"
    | 0xF13 => "Creature"
    | 0xF14 => "Pet"
    | 0xF15 => "Vehicle"
    | 0xF10 => "DynObject"
    | 0xF101 => "Corpse"
    | 0xF102 => "AreaTrigger"
    | 0x1F1 => "Battleground"
    | 0x1FC => "MoTransport"
    | 0x1F4 => "InstanceID"
    | 0x1F5 => "Group"
    | 0x1FF => "Guild"
    | _ => "<unknown>"

/-- Sixteen hexadecimal digits. -/
def hex16 : String :=
  let digits := Nat.toDigits 16 guid.toNat
  String.ofList (List.replicate (16 - digits.length) '0' ++ digits)

/-- `ToString`. -/
def text : String :=
  "GUID Full: 0x" ++ hex16 guid ++ " Type: " ++ getTypeName guid
    ++ (if hasEntry guid then
      (if isPet guid then " Pet number: " else " Entry: ") ++ toString (getEntry guid) ++ " "
      else "")
    ++ " Low: " ++ toString (getCounter guid)

end ObjectGuid

end TrinityCore
