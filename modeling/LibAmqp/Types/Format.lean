import LibAmqp.Types.Bytes

/-!
# Lists of names as text (`AmqpTypes/AmqpMultiple.c`, `Transport/Sasl/ServerSasl.c`)

`amqp_multiple_symbol_to_char_bytes` and `generate_plugin_list` write names one behind the other into
a buffer of the caller. A write at or beyond the size of that buffer is a fault, and so is an `int`
that overflows, as the pointer that it moves is then anywhere.
-/

namespace Amqp

open Buffer

/-- Write bytes to memory of `bound` bytes. -/
def store (bound : Nat) (m : Buffer.Memory) (p : Nat) (bytes : List UInt8) :
    Except Fault Buffer.Memory :=
  if bytes = [] ∨ p + bytes.length ≤ bound then .ok (memcpy m p bytes) else .error .writePastCapacity

/-- `snprintf` of a text: no more than `size` bytes with the zero byte; the result is the length of the
text, which has to be an `int`. -/
def snprintf (bound : Nat) (m : Buffer.Memory) (p size : Nat) (text : List UInt8) :
    Except Fault (Nat × Buffer.Memory) :=
  if 2 ^ 31 ≤ text.length then .error .wildPointer
  else do
    let m ← store bound m p (if size = 0 then [] else text.take (size - 1) ++ [0])
    .ok (text.length, m)

/-- `amqp_symbol_to_bytes` to `p` bytes behind the beginning of the memory. -/
def symbolToBytes (bound : Nat) (m : Buffer.Memory) (p amount : Nat) (v : Variable) :
    Except Fault (Int × Buffer.Memory) :=
  let n := min v.size amount
  if n = 0 ∨ p + n ≤ bound then do
    let (n, copy) ← v.toBytes (fun i => m (p + i)) amount
    .ok (n, fun i => if i < p then m i else copy (i - p))
  else .error .writePastCapacity

/-- The sum of two `int`s. -/
def intAdd (a b : Int) : Except Fault Int :=
  if -2 ^ 31 ≤ a + b ∧ a + b < 2 ^ 31 then .ok (a + b) else .error .wildPointer

/-! ## Symbols -/

/-- The variables of `amqp_multiple_symbol_to_char_bytes`; `p` is an offset. -/
structure Printing where
  result : Int
  available : Int
  p : Nat
  memory : Buffer.Memory

/-- `result += n; p += n; available -= n`. -/
def Printing.advance (s : Printing) (n : Int) (m : Buffer.Memory) : Except Fault Printing := do
  let result ← intAdd s.result n
  let available ← intAdd s.available (-n)
  .ok { result := result, available := available, p := (s.p + n).toNat, memory := m }

/-- The spacer before a symbol that is not the first. -/
def Printing.spacer (bufferSize : Nat) (spacer : List UInt8) (s : Printing) : Except Fault Printing := do
  let (n, m) ← snprintf bufferSize s.memory s.p (ofInt s.available) spacer
  s.advance n m

/-- A symbol. -/
def Printing.symbol (bufferSize : Nat) (v : Variable) (s : Printing) : Except Fault Printing := do
  let (n, m) ← symbolToBytes bufferSize s.memory s.p (ofInt s.available) v
  s.advance n m

/-- The loop of `amqp_multiple_symbol_to_char_bytes`. -/
def toCharBytes.go (bufferSize : Nat) (spacer : List UInt8) :
    Bool → List Variable → Printing → Except Fault Printing
  | _, [], s => .ok s
  | first, v :: symbols, s => do
    let s ← if first then .ok s else s.spacer bufferSize spacer
    let s ← s.symbol bufferSize v
    toCharBytes.go bufferSize spacer false symbols s

/-- `amqp_multiple_symbol_to_char_bytes`. -/
def amqpMultipleSymbolToCharBytes (symbols : List Variable) (spacer : List UInt8) (memory : Buffer.Memory)
    (bufferSize : Nat) : Except Fault (Int × Buffer.Memory) :=
  if bufferSize = 0 then .ok (0, memory)
  else do
    let s ← toCharBytes.go bufferSize spacer true symbols ⟨0, toInt (bufferSize - 1), 0, memory⟩
    if 0 ≤ s.result then do
      let m ← store bufferSize s.memory s.result.toNat [0]
      .ok (s.result, m)
    else .error .writePastCapacity

/-! ## Plugins -/

/-- The loop of `generate_plugin_list`: `bufferSize` bytes are left at `p`, as a `size_t` that wraps. -/
def generatePluginList.go (bound : Nat) : List UInt8 → List (List UInt8) → (p bufferSize : Nat) →
    Buffer.Memory → Except Fault Buffer.Memory
  | _, [], _, _, m => .ok m
  | pad, name :: names, p, bufferSize, m => do
    let (n, m) ← snprintf bound m p bufferSize (pad ++ name)
    generatePluginList.go bound [44, 32] names (p + n) ((2 ^ 64 + bufferSize - n) % 2 ^ 64) m

/-- `generate_plugin_list`, of the names of the plugins. -/
def generatePluginList (names : List (List UInt8)) (memory : Buffer.Memory) (bufferSize : Nat) :
    Except Fault Buffer.Memory :=
  generatePluginList.go bufferSize [] names 0 bufferSize memory

/-! ## What is expected -/

/-- Texts with a spacer between each two. -/
def joined (spacer : List UInt8) : List (List UInt8) → List UInt8
  | [] => []
  | [text] => text
  | text :: texts => text ++ spacer ++ joined spacer texts

/-- What the plugins are printed as, one by one: every name but the first behind a comma. -/
def padded : List UInt8 → List (List UInt8) → List (List UInt8)
  | _, [] => []
  | pad, name :: names => (pad ++ name) :: padded [44, 32] names

/-- The text of the symbols. -/
def joinedSymbols (spacer : List UInt8) (symbols : List Variable) : List UInt8 :=
  joined spacer (symbols.map Variable.contents)

/-- Whatever the buffer held, it holds as much of the text as has room before the zero byte, and nothing
behind the buffer has changed. -/
def Formats (symbols : List Variable) (spacer : List UInt8) (bufferSize : Nat) : Prop :=
  ∀ memory, ∃ result, let n := min (joinedSymbols spacer symbols).length (bufferSize - 1)
    amqpMultipleSymbolToCharBytes symbols spacer memory bufferSize = .ok ((n : Int), result) ∧
      (∀ i < n, result i = (joinedSymbols spacer symbols).getD i 0) ∧ result n = 0 ∧
      ∀ i, bufferSize ≤ i → result i = memory i

/-! ## When there is room -/

/-- Behind `before` characters a spacer is written whole, with a zero byte behind it. A size of the
buffer that is no `int` is cut. -/
def SpacerFits (bufferSize before : Nat) (spacer : List UInt8) : Prop :=
  spacer = [] ∨
    if bufferSize ≤ 2 ^ 31 then before + spacer.length < bufferSize - 1
    else if (bufferSize - 1) % 2 ^ 32 < 2 ^ 31 then before + spacer.length < (bufferSize - 1) % 2 ^ 31
    else before + spacer.length ≤ (bufferSize - 1) % 2 ^ 31

/-- Behind `before` characters a symbol is copied right, as much of it as has room. -/
def SymbolFits (bufferSize before : Nat) (v : Variable) : Prop :=
  v.CopiesRight (min v.size (bufferSize - 1 - min before (bufferSize - 1))) ∧
    (2 ^ 31 < bufferSize → before + v.size ≤ (bufferSize - 1) % 2 ^ 31)

/-- Every spacer and every symbol fits. -/
def ListFits (bufferSize : Nat) (spacer : List UInt8) : Bool → Nat → List Variable → Prop
  | _, _, [] => True
  | first, before, v :: symbols =>
    let start := if first then before else before + spacer.length
    (first = false → SpacerFits bufferSize before spacer) ∧ SymbolFits bufferSize start v ∧
      ListFits bufferSize spacer false (start + v.size) symbols

end Amqp
