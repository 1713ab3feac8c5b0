import OriRuntime.Dict
import OriRuntime.Evaluation
import OriRuntime.Json

/-!
# Rule conditions

The expressions `ori/reasoning/rule_engine.py` checks and evaluates. A node class the check has no
case for is a `construct` of its children. The parser is Python's: a text either fails to parse or
is one tree.
-/

namespace OriRuntime

/-! ### Expressions -/

inductive Constant where
  | none
  | bool (b : Bool)
  | int (n : ℤ)
  | float (f : PyFloat)
  | complex (re im : PyFloat)
  | str (s : Text)
  | bytes (b : List UInt8)
  | ellipsis
  deriving DecidableEq

inductive BoolOperator where
  | and | or
  deriving DecidableEq

inductive Operator where
  | add | sub | mult | matMult | div | mod | pow | lShift | rShift | bitOr | bitXor | bitAnd
  | floorDiv
  deriving DecidableEq

inductive UnaryOperator where
  | invert | not | uAdd | uSub
  deriving DecidableEq

inductive CmpOperator where
  | eq | notEq | lt | ltE | gt | gtE | is | isNot | isIn | notIn
  deriving DecidableEq

inductive ExprContext where
  | load | store | del
  deriving DecidableEq

/-- An operator or context, a node of its own. -/
inductive Symbol where
  | bool (op : BoolOperator)
  | binary (op : Operator)
  | unary (op : UnaryOperator)
  | compare (op : CmpOperator)
  | context (ctx : ExprContext)
  deriving DecidableEq

/-- The other node classes of an expression. -/
inductive Construct where
  | namedExpr | lambda | ifExp | dict | set | listComp | setComp | dictComp | generatorExp | await
  | yield | yieldFrom | formattedValue | interpolation | joinedStr | templateStr | subscript
  | starred | list | tuple | slice | keyword | comprehension | arguments | arg
  deriving DecidableEq

inductive Ast where
  | boolOp (op : BoolOperator) (values : List Ast)
  | binOp (left : Ast) (op : Operator) (right : Ast)
  | unaryOp (op : UnaryOperator) (operand : Ast)
  | compare (left : Ast) (ops : List CmpOperator) (comparators : List Ast)
  | call (func : Ast) (args keywords : List Ast)
  | constant (value : Constant)
  | attribute (value : Ast) (attr : Text) (ctx : ExprContext)
  | name (id : Text) (ctx : ExprContext)
  | construct (kind : Construct) (children : List Ast)
  | symbol (s : Symbol)

namespace Ast

/-- `ast.iter_child_nodes`. -/
def children : Ast → List Ast
  | .boolOp op values => .symbol (.bool op) :: values
  | .binOp left op right => [left, .symbol (.binary op), right]
  | .unaryOp op operand => [.symbol (.unary op), operand]
  | .compare left ops comparators => left :: (ops.map (fun op => .symbol (.compare op)) ++ comparators)
  | .call func args keywords => func :: (args ++ keywords)
  | .constant _ => []
  | .attribute value _ ctx => [value, .symbol (.context ctx)]
  | .name _ ctx => [.symbol (.context ctx)]
  | .construct _ children => children
  | .symbol _ => []

mutual

def size : Ast → ℕ
  | .boolOp _ values => 2 + sizes values
  | .binOp left _ right => 2 + size left + size right
  | .unaryOp _ operand => 2 + size operand
  | .compare left ops comparators => 1 + ops.length + size left + sizes comparators
  | .call func args keywords => 1 + size func + sizes args + sizes keywords
  | .constant _ => 1
  | .attribute value _ _ => 2 + size value
  | .name _ _ => 2
  | .construct _ children => 1 + sizes children
  | .symbol _ => 1

def sizes : List Ast → ℕ
  | [] => 0
  | t :: ts => size t + sizes ts

end

/-- `ast.walk`: the nodes of a queue, each followed at its end by its children. -/
def walkFrom : ℕ → List Ast → List Ast
  | 0, _ => []
  | _ + 1, [] => []
  | fuel + 1, node :: queue => node :: walkFrom fuel (queue ++ node.children)

def walk (t : Ast) : List Ast := walkFrom t.size [t]

end Ast

/-! ### The check -/

inductive SafetyError where
  | tooLong
  | cannotParse
  | notExpression
  | forbiddenCall
  | forbiddenAttribute
  | forbiddenSymbol (s : Symbol)
  | forbiddenConstruct (kind : Construct)
  | unsupportedHelper (method : Text)
  | keywordArgs
  | notLiterals
  | avgArgs
  | lastNSensor
  | lastNCount
  | notNumeric
  | notANumber
  | infinite
  deriving DecidableEq

def Symbol.safe : Symbol → Bool
  | .bool _ => true
  | .binary op => decide (op ∈ [.add, .sub, .mult, .div, .floorDiv, .mod, .pow])
  | .unary op => decide (op ∈ [.not, .uAdd, .uSub])
  | .compare _ => true
  | .context ctx => decide (ctx = .load)

/-- The one object whose attributes a condition may access. -/
def historyName : Text := text "history"

/-- Whether a node is the name of an allowed attribute root. -/
def Ast.isHistory : Ast → Bool
  | .name id _ => decide (id = historyName)
  | _ => false

/-- What `_check_safety_ast` refuses a node for. -/
def Ast.refusal : Ast → Option SafetyError
  | .boolOp .. | .binOp .. | .unaryOp .. | .compare .. | .constant _ | .name .. => none
  | .symbol s => if s.safe then none else some (.forbiddenSymbol s)
  | .call (.attribute value _ _) _ _ => if value.isHistory then none else some .forbiddenCall
  | .call _ _ _ => some .forbiddenCall
  | .attribute value _ _ => if value.isHistory then none else some .forbiddenAttribute
  | .construct kind _ => some (.forbiddenConstruct kind)

def checkSafetyAst (t : Ast) : Except SafetyError Unit :=
  match t.walk.findSome? Ast.refusal with
  | some error => .error error
  | none => .ok ()

/-- What a literal argument evaluates to, as far as the checks below tell values apart. -/
inductive Literal where
  | str (s : Text)
  | bool (b : Bool)
  | int (n : ℤ)
  | other
  deriving DecidableEq

def Literal.ofConstant : Constant → Literal
  | .str s => .str s
  | .bool b => .bool b
  | .int n => .int n
  | _ => .other

def isComplex : Ast → Bool
  | .constant (.complex _ _) => true
  | _ => false

/-- A signed number that is not complex. -/
def isSignedReal : Ast → Bool
  | .constant (.int _) | .constant (.float _) => true
  | .unaryOp .uAdd (.constant (.int _)) | .unaryOp .uAdd (.constant (.float _)) => true
  | .unaryOp .uSub (.constant (.int _)) | .unaryOp .uSub (.constant (.float _)) => true
  | _ => false

/-- `ast.literal_eval`. Its displays are constructs, which the check above has refused. -/
def literalEval : Ast → Option Literal
  | .constant c => some (.ofConstant c)
  | .unaryOp .uAdd (.constant (.int n)) => some (.int n)
  | .unaryOp .uSub (.constant (.int n)) => some (.int (-n))
  | .unaryOp op (.constant (.float _)) => if op = .uAdd ∨ op = .uSub then some .other else none
  | .unaryOp op (.constant (.complex _ _)) => if op = .uAdd ∨ op = .uSub then some .other else none
  | .binOp left op right =>
    if (op = .add ∨ op = .sub) ∧ isSignedReal left ∧ isComplex right then some .other else none
  | _ => none

/-- A history call, as the cache is keyed by it. -/
inductive HistoryKey where
  | avg24h (sensorId : Text)
  | lastN (sensorId : Text) (n : ℤ)
  deriving DecidableEq

def maxLastN : ℤ := 1000

/-- The count of a literal: a boolean is an int. -/
def Literal.count? : Literal → Option ℤ
  | .int n => some n
  | .bool b => some (if b then 1 else 0)
  | _ => none

def avg24hKey : List Literal → Except SafetyError HistoryKey
  | [.str sensorId] => if isBlank sensorId then .error .avgArgs else .ok (.avg24h sensorId)
  | _ => .error .avgArgs

def lastNKey : List Literal → Except SafetyError HistoryKey
  | [.str sensorId, count] =>
    if isBlank sensorId then .error .lastNSensor
    else
      match count.count? with
      | none => .error .lastNCount
      | some n => if n < 1 ∨ maxLastN < n then .error .lastNCount else .ok (.lastN sensorId n)
  | _ => .error .lastNSensor

/-- The validated call of a history helper. -/
def historyKey (attr : Text) (args keywords : List Ast) : Except SafetyError HistoryKey :=
  if attr ≠ text "avg_24h" ∧ attr ≠ text "last_n" then .error (.unsupportedHelper attr)
  else if keywords ≠ [] then .error .keywordArgs
  else
    match args.mapM literalEval with
    | none => .error .notLiterals
    | some literals => if attr = text "avg_24h" then avg24hKey literals else lastNKey literals

/-- What `_extract_history_calls` makes of a node. -/
def Ast.historyCall : Ast → Option (Except SafetyError HistoryKey)
  | .call (.attribute value attr _) args keywords =>
    if value.isHistory then some (historyKey attr args keywords) else none
  | _ => none

def extractHistoryCalls (t : Ast) : Except SafetyError (List HistoryKey) :=
  (t.walk.filterMap Ast.historyCall).mapM id

inductive ParseFailure where
  | syntaxError
  | other
  deriving DecidableEq

def maxConditionChars : ℕ := 4096

def validatedHistoryCalls (parse : Text → Except ParseFailure Ast) (condition : Text) :
    Except SafetyError (List HistoryKey) :=
  if maxConditionChars < condition.length then .error .tooLong
  else
    match parse condition with
    | .error .syntaxError => .error .notExpression
    | .error .other => .error .cannotParse
    | .ok t =>
      match checkSafetyAst t with
      | .error error => .error error
      | .ok () => extractHistoryCalls t

end OriRuntime
