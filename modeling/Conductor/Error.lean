import Conductor.Value
import Conductor.Text.Quoted

/-!
# Conditions and failures

Two sorts of thing go wrong. A *condition* is one of the language's own: it has a
cause, a place in the program and perhaps a payload, and a program can trap it. A
*failure* comes from below the language (a conversion, a file, a host function)
and becomes a condition where the language meets it. Each cause is a constructor;
`Cause.message` and `Failure.message` are the only places where it is worded.
-/

set_option autoImplicit false

namespace Conductor

open Text (quoted)

/-! ## Failures from below -/

inductive Failure
  | digitsBeyondLimit
  | numeralBeyondLimit (digits : Nat)
  | notAnInteger (shown : String)
  | notADecimal (shown : String)
  | infinityToInteger
  | notANumberToInteger
  | integerTooLargeForFloat
  | quotientTooLargeForFloat
  | zeroToNegativePower
  | powerOutOfRange
  | complexOutOfRange
  | indexTooLarge
  | memory
  | emptySeparator
  | notSerializable (kind : String)
  | unsupportedStructure (format : String)
  | unsupportedFormat (format : String)
  | malformedJson (what : String) (line column position : Nat)
  | malformedYaml (what : String)
  | unrepresentable (shown : String)
  | variableName (shown : String)
  | noSuchFile (path : String)
  | system (kind : String) (number : Nat) (what path : String)
  | undecodable (what : String)
  | noModule (name : String)
  | notAHandler (kind : String)
  | notHandlerInfo (kind : String)
  | handlerWithoutName
  | handlerWithoutDomain (name : String)
  | handlerMethods (name : String)
  | fallbackOrder (shown : String)
  | unknownSettings (names : List String)
  | settingsNotMapping (path : String)
  | wrongType (message : String)
  | badHttp (message : String)
  | lookupFailed (key : String)
  | nesting
  | endless
  | raised (kind message : String)
  deriving Inhabited

namespace Failure

def kind : Failure → String
  | digitsBeyondLimit | numeralBeyondLimit _ | notAnInteger _ | notADecimal _ | notANumberToInteger
  | emptySeparator | unsupportedStructure _ | unsupportedFormat _ | handlerWithoutName
  | handlerWithoutDomain _ | handlerMethods _ | fallbackOrder _ | unknownSettings _
  | settingsNotMapping _ => "ValueError"
  | infinityToInteger | integerTooLargeForFloat | quotientTooLargeForFloat | powerOutOfRange
  | complexOutOfRange | indexTooLarge => "OverflowError"
  | zeroToNegativePower => "ZeroDivisionError"
  | memory => "MemoryError"
  | notSerializable _ | variableName _ | notAHandler _ | notHandlerInfo _ | wrongType _ => "TypeError"
  | malformedJson .. => "JSONDecodeError"
  | malformedYaml _ => "YAMLError"
  | unrepresentable _ => "RepresenterError"
  | noSuchFile _ => "FileNotFoundError"
  | system kind .. => kind
  | undecodable _ => "UnicodeDecodeError"
  | noModule _ => "ModuleNotFoundError"
  | badHttp _ => "RuntimeError"
  | lookupFailed _ => "KeyError"
  | nesting => "RecursionError"
  | endless => "TimeoutError"
  | raised kind _ => kind

def message : Failure → String
  | digitsBeyondLimit =>
    "Exceeds the limit (4300 digits) for integer string conversion; use sys.set_int_max_str_digits() " ++
      "to increase the limit"
  | numeralBeyondLimit digits =>
    "Exceeds the limit (4300 digits) for integer string conversion: value has " ++ Nat.repr digits ++
      " digits; use sys.set_int_max_str_digits() to increase the limit"
  | notAnInteger shown => "invalid literal for int() with base 10: " ++ shown
  | notADecimal shown => "could not convert string to float: " ++ shown
  | infinityToInteger => "cannot convert float infinity to integer"
  | notANumberToInteger => "cannot convert float NaN to integer"
  | integerTooLargeForFloat => "int too large to convert to float"
  | quotientTooLargeForFloat => "integer division result too large for a float"
  | zeroToNegativePower => "0.0 cannot be raised to a negative power"
  | powerOutOfRange => "(34, 'Numerical result out of range')"
  | complexOutOfRange => "complex exponentiation"
  | indexTooLarge => "cannot fit 'int' into an index-sized integer"
  | memory => ""
  | emptySeparator => "empty separator"
  | notSerializable kind => "Object of type " ++ kind ++ " is not JSON serializable"
  | unsupportedStructure format => "Unsupported structured format: " ++ quoted format
  | unsupportedFormat format => "Unsupported serialization format: " ++ quoted format
  | malformedJson what line column position =>
    what ++ ": line " ++ Nat.repr line ++ " column " ++ Nat.repr column ++ " (char " ++ Nat.repr position ++ ")"
  | malformedYaml what => what
  | unrepresentable shown => "('cannot represent an object', " ++ shown ++ ")"
  | variableName shown => "Variable name must be a non-empty str, not " ++ shown
  | noSuchFile path => path
  | system _ number what path => "[Errno " ++ Nat.repr number ++ "] " ++ what ++ ": " ++ quoted path
  | undecodable what => what
  | noModule name => "No module named " ++ quoted name
  | notAHandler kind => "Address handlers must implement AddressHandler, not " ++ kind
  | notHandlerInfo kind => "probe() must return HandlerInfo, not " ++ kind
  | handlerWithoutName => "HandlerInfo.canonical_id must be a non-empty string"
  | handlerWithoutDomain name => "Handler " ++ name ++ " must declare at least one domain name"
  | handlerMethods name => "Handler " ++ name ++ ": methods must be a mapping of name -> parameters"
  | fallbackOrder shown =>
    "fallback_order must be a permutation of ('capability', 'remote'), not " ++ shown
  | unknownSettings names => "Unknown configuration keys: " ++ String.intercalate ", " names
  | settingsNotMapping path => "Configuration file " ++ path ++ " must contain a mapping"
  | wrongType message => message
  | badHttp message => message
  | lookupFailed key => key
  | nesting => "maximum recursion depth exceeded"
  | endless => "the run does not end"
  | raised _ message => message

/-- The failures that stop what a task is doing: whatever wraps failures lets these pass. -/
def interrupts (f : Failure) : Bool :=
  ["BaseException", "BaseExceptionGroup", "CancelledError", "GeneratorExit", "KeyboardInterrupt", "SystemExit"].contains f.kind

def isMalformedText : Failure → Bool
  | malformedJson .. | malformedYaml _ => true
  | f => f.kind == "ValueError" || f.kind == "UnicodeDecodeError"

def isArithmetic (f : Failure) : Bool :=
  f.kind == "OverflowError" || f.kind == "ValueError" || f.kind == "ZeroDivisionError" ||
    f.kind == "JSONDecodeError" || f.kind == "UnicodeDecodeError"

end Failure

/-! ## The language's own conditions -/

inductive ConditionKind
  | general
  | parse
  | evaluation
  | typeCoercion
  | argumentBinding
  | missingArgument
  | unknownFunction
  | addressHandler
  | moduleLoad
  | circularDependency
  | duplicatePatternName
  | invalidDelimiter
  | cancellation
  deriving DecidableEq, Repr, Inhabited

namespace ConditionKind

def name : ConditionKind → String
  | general => "RexaError"
  | parse => "ParseError"
  | evaluation => "EvaluationError"
  | typeCoercion => "TypeCoercionError"
  | argumentBinding => "ArgumentBindingError"
  | missingArgument => "MissingArgumentError"
  | unknownFunction => "UnknownFunctionError"
  | addressHandler => "AddressHandlerError"
  | moduleLoad => "ModuleLoadError"
  | circularDependency => "CircularDependencyError"
  | duplicatePatternName => "DuplicatePatternNameError"
  | invalidDelimiter => "InvalidDelimiterError"
  | cancellation => "CancellationError"

def all : List ConditionKind :=
  [general, parse, evaluation, typeCoercion, argumentBinding, missingArgument, unknownFunction,
    addressHandler, moduleLoad, circularDependency, duplicatePatternName, invalidDelimiter, cancellation]

def ofName? (s : String) : Option ConditionKind := all.find? fun k => k.name == s

def isModuleLoad : ConditionKind → Bool
  | moduleLoad | circularDependency => true
  | _ => false

end ConditionKind

inductive Cause
  -- reading a program
  | unterminatedString
  | badNumber (near : String)
  | badCharacter (c : Char)
  | unterminatedBlock (delimiter : String)
  | endOfExpression
  | unexpectedToken (shown : String)
  | unexpectedWord (word : String)
  | missingTerminator (expected : List String) (openedOn : Option Nat)
  | nestedLabel (name : String)
  | blockLiteralPlace
  | missingValue
  | letForm
  | requireForm
  | argForm (shown : String)
  | callForm
  | addressForm
  | addressRule (mode : String)
  | addressMode (shown : String)
  | signalForm
  | signalCondition (shown : String)
  | signalName
  | registerForm
  | interpolationForm
  | ifWithoutThen
  -- values
  | notANumber (shown : String)
  | negativeCount (shown : String)
  | notWhole (what shown : String)
  | notAStem (function shown : String)
  | overNeedsStem (shown : String)
  -- evaluation
  | divisionByZero
  | arithmetic (operator : String) (failure : Failure)
  | labelNotFound (label : String)
  | callDepth (label : String)
  | outsideLoop (action : String)
  | noLoader (identifier : String)
  | zeroStep
  | badCount (shown : String)
  | functionFailed (function : String) (failure : Failure)
  | internal (failure : Failure)
  | needsValue (function : String)
  | badStart (shown : String)
  | badJson (failure : Failure)
  | badYaml (failure : Failure)
  | unknownResponseMode (mode : String)
  | unknownDatatype (type : String)
  -- calls
  | noValue (function : String)
  | namedOnly (function : String)
  | noParameter (function parameter : String)
  | givenTwice (function parameter : String)
  | cannotPipe (function : String)
  | tooManyPositional (function : String) (limit : Nat)
  | missingParameter (function parameter : String)
  | unknownFunction (name : String)
  -- addresses
  | noHandler (domain : String)
  | badRule (rule problem : String)
  | unknownMode (mode : String)
  | needsRule (domain : String)
  | timedOut (handler seconds : String)
  | malformedReply (domain shown : String)
  | handlerFailed (handler : String)
  | reported (message : String)
  | malformedChannelReply (function : String)
  | remoteUnknown (message : String)
  -- interpolation
  | emptyPatternName
  | emptyDelimiter (name : String)
  | duplicatePattern (name : String)
  | unknownPattern (shown : String)
  | placeholderCount (sample : String)
  | placeholderSides (sample : String)
  -- modules
  | emptyIdentifier (identifier : String)
  | noRegistry (shown identifier : String)
  | loadFailed (identifier causeKind causeMessage : String)
  | loadInterrupted (identifier : String)
  | notCallable (name identifier : String)
  | cycle (identifiers : List String)
  -- control
  | cancelled
  -- raised by a host function
  | raised (kind : ConditionKind) (message : String)
  deriving Inhabited

namespace Cause

def kind : Cause → ConditionKind
  | unterminatedString | badNumber _ | badCharacter _ | unterminatedBlock _ | endOfExpression
  | unexpectedToken _ | unexpectedWord _ | missingTerminator .. | nestedLabel _ | blockLiteralPlace
  | missingValue | letForm | requireForm | argForm _ | callForm | addressForm | addressRule _
  | addressMode _ | signalForm | signalCondition _ | signalName | registerForm | interpolationForm
  | ifWithoutThen => .parse
  | notANumber _ | negativeCount _ | notWhole .. | notAStem .. | overNeedsStem _ => .typeCoercion
  | divisionByZero | arithmetic .. | labelNotFound _ | callDepth _ | outsideLoop _ | noLoader _
  | zeroStep | badCount _ | functionFailed .. | internal _ | needsValue _ | badStart _ | badJson _
  | badYaml _ | unknownResponseMode _ | unknownDatatype _ | unknownPattern _ => .evaluation
  | noValue _ | namedOnly _ | noParameter .. | givenTwice .. | cannotPipe _ | tooManyPositional .. =>
    .argumentBinding
  | missingParameter .. => .missingArgument
  | unknownFunction _ | remoteUnknown _ => .unknownFunction
  | noHandler _ | badRule .. | unknownMode _ | needsRule _ | timedOut .. | malformedReply ..
  | handlerFailed _ | reported _ | malformedChannelReply _ => .addressHandler
  | emptyPatternName | emptyDelimiter _ | placeholderCount _ | placeholderSides _ => .invalidDelimiter
  | duplicatePattern _ => .duplicatePatternName
  | emptyIdentifier _ | noRegistry .. | loadFailed .. | loadInterrupted _ | notCallable .. => .moduleLoad
  | cycle _ => .circularDependency
  | cancelled => .cancellation
  | raised kind _ => kind

def message : Cause → String
  | unterminatedString => "Unterminated string literal"
  | badNumber near => "Invalid number literal near " ++ quoted near
  | badCharacter c => "Unexpected character " ++ quoted (String.singleton c)
  | unterminatedBlock delimiter => "Unterminated block literal <<" ++ delimiter
  | endOfExpression => "Unexpected end of expression"
  | unexpectedToken shown => "Unexpected token " ++ shown
  | unexpectedWord word => "Unexpected " ++ word
  | missingTerminator expected openedOn =>
    "Missing " ++ String.intercalate " or " expected ++ " for block opened on line " ++
      (match openedOn with | some n => Nat.repr n | none => "None")
  | nestedLabel name => "Label " ++ name ++ " must be at the top level"
  | blockLiteralPlace =>
    "A block literal must stand alone or be the right-hand side of an assignment"
  | missingValue => "Missing value in assignment"
  | letForm => "LET must be followed by `name = value`"
  | requireForm => "REQUIRE needs a module identifier"
  | argForm shown => "ARG expects names, found " ++ shown
  | callForm => "CALL expects a routine name"
  | addressForm => "ADDRESS expects a domain name"
  | addressRule mode => "ADDRESS " ++ mode ++ " takes no rule"
  | addressMode shown => "Unknown ADDRESS mode " ++ shown
  | signalForm => "SIGNAL expects ON, OFF or a label"
  | signalCondition shown => "Unknown condition " ++ shown
  | signalName => "SIGNAL ON ... NAME expects a label"
  | registerForm => "INTERPOLATION REGISTER expects: name \"start\" \"end\""
  | interpolationForm => "INTERPOLATION expects REGISTER, a pattern name or an example string"
  | ifWithoutThen => "IF without THEN"
  | notANumber shown => "Bad arithmetic conversion: " ++ shown ++ " is not a number"
  | negativeCount shown => "Stem count cannot be negative: " ++ shown
  | notWhole what shown => what ++ " must be a whole number, not " ++ shown
  | notAStem function shown => function ++ " expects a stem, not " ++ shown
  | overNeedsStem shown => "DO ... OVER needs a stem, not " ++ shown
  | divisionByZero => "Division by zero"
  | arithmetic operator failure => "Arithmetic error in " ++ operator ++ ": " ++ failure.message
  | labelNotFound label => "Label " ++ label ++ " not found"
  | callDepth label => "Call depth limit (100) exceeded in " ++ label
  | outsideLoop action => action ++ " outside of a loop"
  | noLoader identifier => "No module loader available for " ++ identifier
  | zeroStep => "DO ... BY step must not be zero"
  | badCount shown => "DO count must be a non-negative whole number, not " ++ shown
  | functionFailed function failure => function ++ ": " ++ failure.message
  | internal failure => "InternalError: " ++ failure.message
  | needsValue function => function ++ " needs at least one value"
  | badStart shown => "SUBSTR start must be positive, not " ++ shown
  | badJson failure => "JSON_PARSE: " ++ failure.message
  | badYaml failure => "YAML_PARSE: " ++ failure.message
  | unknownResponseMode mode => "HTTP_GET: unknown response mode " ++ quoted mode
  | unknownDatatype type => "DATATYPE: unknown type " ++ quoted type
  | noValue function => function ++ " is an operation and produces no value"
  | namedOnly function => function ++ " is an operation and takes named arguments only"
  | noParameter function parameter => function ++ " has no parameter named '" ++ parameter ++ "'"
  | givenTwice function parameter => function ++ ": parameter '" ++ parameter ++ "' given more than once"
  | cannotPipe function => function ++ ": cannot pipe a value, all arguments are already supplied"
  | tooManyPositional function limit =>
    function ++ " takes at most " ++ Nat.repr limit ++ " positional argument(s)"
  | missingParameter function parameter =>
    function ++ ": missing required argument '" ++ parameter ++ "'"
  | unknownFunction name => "Unknown function " ++ name
  | noHandler domain => "No handler registered for domain " ++ domain
  | badRule rule problem => "Invalid pattern rule " ++ quoted rule ++ ": " ++ problem
  | unknownMode mode => "Unknown address mode " ++ quoted mode
  | needsRule domain => "Pattern mode for " ++ domain ++ " needs a rule"
  | timedOut handler seconds => "Handler " ++ handler ++ " timed out after " ++ seconds ++ "s"
  | malformedReply domain shown => "Handler for " ++ domain ++ " returned a malformed reply: " ++ shown
  | handlerFailed handler => "Handler " ++ handler ++ " reported failure"
  | reported message => message
  | malformedChannelReply function => "Malformed reply from control channel for " ++ function
  | remoteUnknown message => message
  | emptyPatternName => "Interpolation pattern name must not be empty"
  | emptyDelimiter name =>
    "Interpolation pattern " ++ quoted name ++ " needs non-empty start and end delimiters"
  | duplicatePattern name => "Interpolation pattern " ++ quoted name ++ " is already registered"
  | unknownPattern shown => "Unknown interpolation pattern " ++ shown
  | placeholderCount sample =>
    "Interpolation example " ++ quoted sample ++ " must contain exactly one 'v' placeholder"
  | placeholderSides sample =>
    "Interpolation example " ++ quoted sample ++ " needs text on both sides of 'v'"
  | emptyIdentifier _ => "Empty module identifier"
  | noRegistry shown _ => "No module registry configured for " ++ shown
  | loadFailed identifier _ causeMessage =>
    "Failed to load module " ++ identifier ++ ": " ++ causeMessage
  | loadInterrupted identifier => "Loading module " ++ identifier ++ " was interrupted"
  | notCallable name identifier => "Export " ++ quoted name ++ " of " ++ identifier ++ " is not callable"
  | cycle identifiers => "Circular dependency: " ++ String.intercalate " -> " identifiers
  | cancelled => "Execution cancelled"
  | raised _ message => message

def identifier? : Cause → Option String
  | emptyIdentifier identifier | noRegistry _ identifier | loadFailed identifier ..
  | loadInterrupted identifier => some identifier
  | notCallable _ identifier => some identifier
  | cycle identifiers => identifiers.head?
  | _ => none

def causeKind? : Cause → Option String
  | loadFailed _ causeKind _ => some causeKind
  | _ => none

def cycle? : Cause → Option (List String)
  | cycle identifiers => some identifiers
  | _ => none

end Cause

structure Condition where
  cause : Cause
  line : Option Nat := none
  col : Option Nat := none
  function : Option String := none
  domain : Option String := none
  payload : Option Tree := none
  /-- The load of a module that failed with it, if one did. -/
  load : Option Nat := none
  /-- The message as a reply gave it, when that is no text. -/
  said : Option Tree := none
  deriving Inhabited

namespace Condition

def kind (c : Condition) : ConditionKind := c.cause.kind

def message (c : Condition) : String := c.cause.message

def spoken (c : Condition) : Tree := c.said.getD (.text c.message)

def withContext (c : Condition) (line : Option Nat) (function domain : Option String) : Condition :=
  { c with line := c.line <|> line, function := c.function <|> function, domain := c.domain <|> domain }

def atLine (c : Condition) (line : Option Nat) : Condition := c.withContext line none none

end Condition

/-- What can go wrong: a condition of the language or a failure from below it. -/
inductive Problem
  | condition (c : Condition)
  | failure (f : Failure)
  deriving Inhabited

namespace Problem

def kindName : Problem → String
  | condition c => c.kind.name
  | failure f => f.kind

def message : Problem → String
  | condition c => c.message
  | failure f => f.message

def interrupts : Problem → Bool
  | condition _ => false
  | failure f => f.interrupts

def ofCause (cause : Cause) : Problem := .condition { cause := cause }

end Problem

end Conductor
