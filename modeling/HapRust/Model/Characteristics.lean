import HapRust.Controller.Handle
import HapRust.Model.Format
import Mathlib.Data.List.ReduceOption

/-! Requests and responses of `/characteristics`. -/

namespace HapRust.Model
open Lib
open Ble (CharFormat CharValue)
open Controller (CharId)

def buildReadRequest (ids : List CharId) : String :=
  "/characteristics?id=" ++
    String.intercalate "," (ids.map fun id => toString id.1 ++ "." ++ toString id.2)

section
variable (J : JsonCodec)

def buildWriteRequestWithResponse (writes : List (CharId × CharValue)) : Bytes :=
  let entry (w : CharId × CharValue) : Json :=
    .object [("aid", .number (.posInt w.1.1)), ("iid", .number (.posInt w.1.2)),
      ("r", .bool true), ("value", toJson J w.2)]
  J.toVec (.object [("characteristics", .array (writes.map entry))])

def inferValue : Json → Except ModelError CharValue
  | .bool b => .ok (.bool b)
  | .string s => .ok (.str s)
  | .number n =>
    match n.asU64, n.asI64, n.asF64 with
    | some u, _, _ => .ok (.uint u)
    | none, some i, _ => .ok (.int i)
    | none, none, some f => .ok (.float f)
    | none, none, none =>
      .error (.valueType "unknown" ("uninterpretable number " ++ J.display (.number n)))
  | other => .error (.valueType "unknown" ("got JSON " ++ J.display other))

namespace WireReadEntry

def id (e : WireReadEntry) : CharId := (e.aid, e.iid)

def decode (e : WireReadEntry) : Option (Except ModelError CharValue) :=
  e.value.map fun raw =>
    match e.format with
    | some fmt => valueFromJson J fmt raw
    | none => inferValue J raw

def read (e : WireReadEntry) : Except ModelError (Option (CharId × CharValue)) := do
  ensure (e.status.all (· = 0)) (.characteristicStatus e.aid e.iid (e.status.getD 0))
  match e.decode J with
  | none => return none
  | some decoded => do
    let value ← decoded
    return some (e.id, value)

end WireReadEntry

def parseReadResponse (json : Bytes) : Except ModelError (List (CharId × CharValue)) := do
  let wire ← mapErr .json (J.fromSlice json)
  let out ← wire.mapM (WireReadEntry.read J)
  return out.reduceOption

end
end HapRust.Model
