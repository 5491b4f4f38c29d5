import LibAmqp.Codec.Array
import LibAmqp.Connection.State
import LibAmqp.Transport.Field

/-!
# The list of SASL mechanisms (`Transport/Sasl/SaslMechanisms.c`)

`amqpSaslMechanismsEncode` takes the registered plugins in their order. The encodings of the names are
discarded, only the symbol or the array is returned.

* `mechanismsCalls`: its calls of the encoder.
* `Announces`: what is decoded again has the names of the plugins.
-/

namespace Amqp

open Lib

/-! ## Encoding -/

/-- What the first loop of `amqp_sasl_mechanisms_encode` counts. -/
structure MechanismCount where
  count : Nat
  totalLength : Nat
  containsLongName : Bool

/-- The first loop, over the lengths of the names. C has them in an `int`: names that fit a buffer are too
short for another result. -/
def countMechanisms (s : MechanismCount) : List SaslPlugin → MechanismCount
  | [] => s
  | plugin :: plugins =>
    let length := plugin.mechanismName.length
    countMechanisms ⟨s.count + 1, s.totalLength + length, s.containsLongName || 254 < length⟩ plugins

/-- The loop that fills an `array_8`. -/
def encodeShortMechanisms (c : Context) (b : Buffer) : List SaslPlugin → Except Fault (Context × Buffer)
  | [] => .ok (c, b)
  | plugin :: plugins => do
    let (_, c, b) ← amqpEncodeSymbolSym8 c b plugin.mechanismName
    encodeShortMechanisms c b plugins

/-- The loop that fills an `array_32`. The block behind the `if` is no `else`: it is always run. -/
def encodeMechanisms (containsLongName : Bool) (c : Context) (b : Buffer) :
    List SaslPlugin → Except Fault (Context × Buffer)
  | [] => .ok (c, b)
  | plugin :: plugins => do
    let (c, b) ←
      if containsLongName then do
        let (_, c, b) ← amqpEncodeSymbolSym32 c b plugin.mechanismName
        .ok (c, b)
      else .ok (c, b)
    let (_, c, b) ← amqpEncodeSymbolSym8 c b plugin.mechanismName
    encodeMechanisms containsLongName c b plugins

/-- `amqp_sasl_mechanisms_encode`. -/
def amqpSaslMechanismsEncode (c : Context) (b : Buffer) (plugins : List SaslPlugin) : Encoding :=
  match plugins with
  | [] => .error .assertFailed
  | plugin :: _ =>
    let s := countMechanisms ⟨0, 0, false⟩ plugins
    if s.count = 1 then amqpEncodeSymbol c b plugin.mechanismName
    else if s.totalLength + s.count < 254 then do
      let (result, c, b) ← amqpEncodeArray8 c b
      let (c, b) ← encodeShortMechanisms c b plugins
      let (_, c, b) ← amqpCompleteType c b result
      .ok (result, c, b)
    else do
      let (result, c, b) ← amqpEncodeArray32 c b
      let (c, b) ← encodeMechanisms s.containsLongName c b plugins
      let (_, c, b) ← amqpCompleteType c b result
      .ok (result, c, b)

/-! ## Its calls -/

/-- There is a name that needs a `sym32`, or nearly does. -/
def containsLongName (names : List (List UInt8)) : Bool := names.any fun name => 254 < name.length

/-- The calls for the elements of the `array_32`. -/
def mechanismLeaves (long : Bool) (names : List (List UInt8)) : List Leaf :=
  names.flatMap fun name => if long then [.symbolSym32 name, .symbolSym8 name] else [.symbolSym8 name]

/-- The calls of `amqp_sasl_mechanisms_encode`, for the names of the plugins. -/
def mechanismsCalls (names : List (List UInt8)) : CallTree :=
  match names with
  | [name] => .leaf (.scalar (.symbol name)) .nil
  | _ =>
    if (names.map List.length).sum + names.length < 254 then
      .container .array8 (.leaves (mechanismLeaves false names)) .nil
    else .container .array32 (.leaves (mechanismLeaves (containsLongName names) names)) .nil

/-! ## What is decoded -/

/-- An `amqp_symbol_t` for a decoded type has these bytes. -/
def TypeRef.Spells (c : Context) (b : Buffer) (r : TypeRef) (name : List UInt8) : Prop :=
  r.size = name.length ∧ ∃ s t, r.type = some s ∧ c.types.load s = some t ∧
    b.bytes t.position.index t.position.size = name

/-- A symbol, or an array of symbols, with these names. -/
def Symbols (c : Context) (b : Buffer) (type : Slot) (names : List (List UInt8)) : Prop :=
  (∃ name, names = [name] ∧ Holds c b (.scalar (.symbol name) .nil) [some type]) ∨
    ∃ k : Former, k.isArray = true ∧
      Holds c b (.container k (.scalars (names.map .symbol)) .nil) [some type]

/-- `amqp_multiple_symbol_initialize` makes the list of these names of a type. -/
def MultipleSymbols (c : Context) (b : Buffer) (type : Slot) (names : List (List UInt8)) : Prop :=
  ∀ (symbols : SymbolHeap) (multiple : TypeRef), ∃ multiple' symbols' contents,
    amqpMultipleSymbolInitialize c symbols (some type) multiple = .ok (true, multiple', symbols') ∧
      multiple'.size = names.length ∧ symbols'.get multiple'.data = some contents ∧
      List.Forall₂ (TypeRef.Spells c b) contents names

/-- The value that was written is valid, and `amqp_decode` makes a symbol or an array of symbols of it that
has the names of the plugins, each once and in their order. -/
def Announces (c : Context) (b : Buffer) (plugins : List SaslPlugin) : Prop :=
  ∃ type c1 b1, amqpSaslMechanismsEncode c b plugins = .ok (type, c1, b1) ∧ c1.isValid type = true ∧
    ∃ s c2, amqpDecode c1 { b1 with index := b.size } = .ok (some s, c2, { b1 with index := b1.size }) ∧
      Symbols c2 { b1 with index := b.size } s (plugins.map (·.mechanismName)) ∧
      MultipleSymbols c2 { b1 with index := b.size } s (plugins.map (·.mechanismName))

/-- The names are those of plugins: C strings of ASCII characters, not empty. -/
def MechanismNames (plugins : List SaslPlugin) : Prop :=
  ∀ p ∈ plugins, p.mechanismName ≠ [] ∧ ∀ x ∈ p.mechanismName, x ≠ 0 ∧ x < 128

end Amqp
