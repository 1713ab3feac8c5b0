import OriRuntime.RuleConditions

/-!
# Evaluating a condition

`eval` of a condition in the namespace of `EvalContext`, its globals `{"__builtins__": {}}`. Objects
other than the history object, and the operators on them, are Python's own. An evaluation records
what it reads, calls and binds, in order.
-/

namespace OriRuntime

/-- What an evaluation reads, calls or binds. -/
inductive Access where
  /-- A name of the namespace. -/
  | name (id : Text)
  /-- A name only the globals have. -/
  | globals (id : Text)
  /-- A name nothing has: `NameError`. -/
  | unresolved (id : Text)
  /-- `__debug__`, which the compiler replaces by a constant. -/
  | debug
  | bind (id : Text)
  | attribute (value : Ast) (attr : Text)
  /-- An attribute read to be called with the arguments. -/
  | methodCall (value : Ast) (attr : Text) (args : List Ast)
  | call (func : Ast) (args : List Ast)
  | construct (kind : Construct)

inductive EvalError where
  | nameError (id : Text)
  | other
  deriving DecidableEq

/-- The history object, or any other. -/
inductive Operand (U : Type*) where
  | history
  | object (u : U)
  deriving DecidableEq

/-- Python's objects and what its operators make of them. -/
structure Objects (U : Type*) where
  constant : Constant → U
  emptyDict : U
  unary : UnaryOperator → Operand U → Except EvalError (Operand U)
  binary : Operator → Operand U → Operand U → Except EvalError (Operand U)
  compare : CmpOperator → Operand U → Operand U → Except EvalError (Operand U)
  truth : Operand U → Except EvalError Bool
  call : Operand U → List (Operand U) → Except EvalError (Operand U)
  getattr : U → Text → Except EvalError (Operand U)
  historyAttr : Text → Except EvalError (Operand U)
  number? : U → Option PyFloat
  isBool : U → Bool
  float : U → Except EvalError U
  list? : U → Option (List U)
  ofList : List U → U
  text? : U → Option Text
  integer? : U → Option ℤ

structure EvalContext (U : Type*) where
  values : Dict Text U
  historyCache : Dict HistoryKey U := Dict.empty

structure Evaluation (α : Type*) where
  accesses : List Access
  result : Except EvalError α

namespace Evaluation

variable {α β : Type*}

def pure (a : α) : Evaluation α := ⟨[], .ok a⟩

def lift (result : Except EvalError α) : Evaluation α := ⟨[], result⟩

def access (a : Access) (result : Except EvalError α) : Evaluation α := ⟨[a], result⟩

def andThen (e : Evaluation α) (f : α → Evaluation β) : Evaluation β :=
  match e.result with
  | .ok a => ⟨e.accesses ++ (f a).accesses, (f a).result⟩
  | .error error => ⟨e.accesses, .error error⟩

end Evaluation

/-! ### The namespace -/

structure EventReading (U : Type*) where
  value : U
  sensorId : U
  sensorType : U
  unit : U
  quality : U

/-- The names a reading gives, whatever the supplied context says. -/
def reservedContextNames : List Text :=
  [text "value", text "sensor_id", text "sensor_type", text "unit", text "quality"]

def baseContext {U : Type*} (reading : Option (EventReading U)) (context : Dict Text U) : Dict Text U :=
  match reading with
  | none => context
  | some r =>
    ((((context.set (text "value") r.value).set (text "sensor_id") r.sensorId).set
      (text "sensor_type") r.sensorType).set (text "unit") r.unit).set (text "quality") r.quality

theorem baseContext_get?_isSome {U : Type*} (reading : Option (EventReading U)) (context : Dict Text U)
    (id : Text) : ((baseContext reading context).get? id).isSome = true ↔
      (reading.isSome = true ∧ id ∈ reservedContextNames) ∨ (context.get? id).isSome = true := by
  cases reading with
  | none => simp [baseContext]
  | some r =>
    simp only [baseContext, Dict.get?_set, Option.isSome_some, true_and, reservedContextNames,
      List.mem_cons, List.not_mem_nil, or_false]
    split_ifs <;> simp_all

/-! ### The history object -/

namespace EvalContext

variable {U : Type*} (o : Objects U) (c : EvalContext U)

def isNumber (u : U) : Bool := (o.number? u).isSome && !o.isBool u

def avg24h (key : Option HistoryKey) : Except EvalError U :=
  match key.bind c.historyCache.get? with
  | none => .ok (o.constant (.float (.finite 0)))
  | some value => if isNumber o value then o.float value else .ok (o.constant (.float (.finite 0)))

def lastN (key : Option HistoryKey) : Except EvalError U :=
  match (key.bind c.historyCache.get?).bind o.list? with
  | none => .ok (o.ofList [])
  | some values => ((values.filter (isNumber o)).mapM o.float).map o.ofList

/-- The cache's key of arguments; only a string, with an int, is ever one. -/
def key? : List (Operand U) → Option HistoryKey
  | [.object sensorId] => (o.text? sensorId).map .avg24h
  | [.object sensorId, .object n] =>
    match o.text? sensorId, o.integer? n with
    | some sensorId, some n => some (.lastN sensorId n)
    | _, _ => none
  | _ => none

def callHelper (attr : Text) (args : List (Operand U)) : Except EvalError (Operand U) :=
  if attr = text "avg_24h" then
    if args.length = 1 then (c.avg24h o (key? o args)).map .object else .error .other
  else if args.length = 2 then (c.lastN o (key? o args)).map .object else .error .other

/-- `as_dict`: the values, and `history` for this object whatever they say. -/
def asDict (id : Text) : Option (Operand U) :=
  if id = historyName then some .history else (c.values.get? id).map .object

end EvalContext

/-! ### Evaluation -/

section

variable {U : Type*} (o : Objects U) (c : EvalContext U)

/-- The name the globals hold besides the namespace. -/
def builtinsName : Text := text "__builtins__"

def debugName : Text := text "__debug__"

/-- How a name resolves: the compiler first, then the namespace, then the globals. -/
def nameAccess (id : Text) (ctx : ExprContext) : Access :=
  if ctx ≠ .load then .bind id
  else if id = debugName then .debug
  else if (c.asDict id).isSome then .name id
  else if id = builtinsName then .globals id
  else .unresolved id

def loadName (id : Text) (ctx : ExprContext) : Except EvalError (Operand U) :=
  if ctx ≠ .load then .error .other
  else if id = debugName then .ok (.object (o.constant (.bool true)))
  else
    match c.asDict id with
    | some value => .ok value
    | none => if id = builtinsName then .ok (.object o.emptyDict) else .error (.nameError id)

/-- A method found, the history object's helpers apart. -/
inductive Method (U : Type*) where
  | helper (attr : Text)
  | function (f : Operand U)

def getMethod (attr : Text) : Operand U → Except EvalError (Method U)
  | .history =>
    if attr = text "avg_24h" ∨ attr = text "last_n" then .ok (.helper attr)
    else (o.historyAttr attr).map .function
  | .object u => (o.getattr u attr).map .function

def callMethod (args : List (Operand U)) : Method U → Except EvalError (Operand U)
  | .helper attr => c.callHelper o attr args
  | .function f => o.call f args

def getAttribute (attr : Text) : Operand U → Except EvalError (Operand U)
  | .history => o.historyAttr attr
  | .object u => o.getattr u attr

mutual

def eval : Ast → Evaluation (Operand U)
  | .constant value => .pure (.object (o.constant value))
  | .name id ctx => .access (nameAccess c id ctx) (loadName o c id ctx)
  | .boolOp op values => evalBool op values
  | .binOp left op right =>
    (eval left).andThen (fun l => (eval right).andThen (fun r => .lift (o.binary op l r)))
  | .unaryOp op operand => (eval operand).andThen (fun v => .lift (o.unary op v))
  | .compare left ops comparators =>
    (eval left).andThen (fun l => evalCompare l ops comparators)
  | .call (.attribute value attr _) args keywords =>
    (eval value).andThen (fun receiver =>
    (Evaluation.access (.methodCall value attr args) (getMethod o attr receiver)).andThen
      (fun method => (evalAll args).andThen (fun vs =>
        if keywords = [] then .lift (callMethod o c vs method)
        else .access (.construct .keyword) (.error .other))))
  | .call func args keywords =>
    (eval func).andThen (fun f => (evalAll args).andThen (fun vs =>
    if keywords = [] then .access (.call func args) (o.call f vs)
    else .access (.construct .keyword) (.error .other)))
  | .attribute value attr _ =>
    (eval value).andThen (fun v => .access (.attribute value attr) (getAttribute o attr v))
  | .construct kind _ => .access (.construct kind) (.error .other)
  | .symbol _ => .lift (.error .other)

/-- The operands of `and` and `or`, up to the one that decides. -/
def evalBool (op : BoolOperator) : List Ast → Evaluation (Operand U)
  | [] => .lift (.error .other)
  | t :: ts =>
    (eval t).andThen (fun v =>
    if ts = [] then .pure v
    else (Evaluation.lift (o.truth v)).andThen (fun b =>
      if b = decide (op = .and) then evalBool op ts else .pure v))

/-- A chain of comparisons, up to the first that fails. -/
def evalCompare (left : Operand U) : List CmpOperator → List Ast → Evaluation (Operand U)
  | op :: ops, t :: ts =>
    (eval t).andThen (fun right =>
    (Evaluation.lift (o.compare op left right)).andThen (fun v =>
      if ts = [] then .pure v
      else (Evaluation.lift (o.truth v)).andThen (fun b =>
        if b then evalCompare right ops ts else .pure v)))
  | _, _ => .pure left

def evalAll : List Ast → Evaluation (List (Operand U))
  | [] => .pure []
  | t :: ts => (eval t).andThen (fun v => (evalAll ts).andThen (fun vs => .pure (v :: vs)))

end

def evalCheckedCondition (t : Ast) : Evaluation Bool :=
  (eval o c t).andThen (fun v => .lift (o.truth v))

mutual

/-- Everything an expression can read, call or bind, however its operators decide. -/
def performs : Ast → List Access
  | .constant _ => []
  | .name id ctx => [nameAccess c id ctx]
  | .boolOp _ values => performsAll values
  | .binOp left _ right => performs left ++ performs right
  | .unaryOp _ operand => performs operand
  | .compare left _ comparators => performs left ++ performsAll comparators
  | .call (.attribute value attr _) args keywords =>
    performs value ++ (.methodCall value attr args :: performsAll args) ++
      (if keywords = [] then [] else [.construct .keyword])
  | .call func args keywords =>
    performs func ++ (.call func args :: performsAll args) ++
      (if keywords = [] then [] else [.construct .keyword])
  | .attribute value attr _ => performs value ++ [.attribute value attr]
  | .construct kind _ => [.construct kind]
  | .symbol _ => []

def performsAll : List Ast → List Access
  | [] => []
  | t :: ts => performs t ++ performsAll ts

end

end

end OriRuntime
