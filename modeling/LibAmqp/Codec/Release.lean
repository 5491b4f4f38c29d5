import LibAmqp.Codec.Context

/-!
# Releasing a type (`Codec/Type/Type.c`, `Context/Context.c`)

`amqp_deallocate_type` calls the pool's destroyer callback, which gives back what a container owns,
and then gives back the type. The recursion goes through `amqp_deallocate`; `fuel` bounds the nesting
and the types in use are enough of it.
-/

namespace Amqp

/-- `amqp_deallocate_type`, for the recursion of the destroyer callback. -/
abbrev Deallocate := Context → Option Slot → Except Fault Context

/-- The loop of `amqp_deallocate_amqp_type_t_array`, from element `i` on. -/
def deallocateElements (deallocate : Deallocate) (array : Nat) : Nat → Nat → Context →
    Except Fault Context
  | 0, _, c => .ok c
  | n + 1, i, c => do
    let c ← deallocate c (← c.getElement array i)
    deallocateElements deallocate array n (i + 1) c

/-- `amqp_deallocate_amqp_type_t_array`. -/
def deallocateAmqpTypeArray (deallocate : Deallocate) (c : Context) (array count : Nat) :
    Except Fault Context :=
  if array ≠ 0 then do
    let c ← deallocateElements deallocate array count 0 c
    c.freeArray array
  else .ok c

/-- The first `if` of `amqp_cleanup_amqp_type_t`. -/
def cleanupElements (deallocate : Deallocate) (c : Context) (type : AmqpType) :
    Except Fault Context :=
  if type.typeIsContainer then
    deallocateAmqpTypeArray deallocate c type.value.elements type.value.count
  else .ok c

/-- The second `if` of `amqp_cleanup_amqp_type_t`. -/
def cleanupConstructor (deallocate : Deallocate) (c : Context) (type : AmqpType) :
    Except Fault Context :=
  if type.typeIsArray &&
      (!type.typeIsEncoded || (type.typeIsEncoded && type.value.count == 0)) then
    deallocate c type.value.constructor
  else .ok c

/-- `amqp_cleanup_amqp_type_t`, the type pool's destroyer callback. -/
def cleanupAmqpType (deallocate : Deallocate) (c : Context) (s : Slot) : Except Fault Context := do
  let c ← cleanupElements deallocate c (← c.load s)
  cleanupConstructor deallocate c (← c.load s)

/-- `amqp_deallocate` on the type pool; null is left alone. -/
def deallocateType : Nat → Deallocate
  | _, c, none => .ok c
  | 0, _, some _ => .error .outOfFuel
  | fuel + 1, c, some s => do
    let c ← cleanupAmqpType (deallocateType fuel) c s
    c.deleteType s

/-- `amqp_deallocate_type`. -/
def amqpDeallocateType (c : Context) (type : Option Slot) : Except Fault Context :=
  deallocateType c.types.outstandingAllocations c type

end Amqp
