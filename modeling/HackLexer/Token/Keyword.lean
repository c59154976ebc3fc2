/-!
# Keywords

The reserved words and magic constants of Hack.  Each keyword has a canonical
spelling in source texts, a stable name for dumps, and a label under which it
is listed.
-/

namespace HackLexer

/-- A reserved word or magic constant. -/
inductive Keyword where
  | kwAbstract
  | kwArray
  | kwAs
  | kwAsync
  | kwAwait
  | boolCast
  | kwBreak
  | kwCallable
  | kwCase
  | kwCatch
  | kwClass
  | classConstant
  | kwClone
  | kwConst
  | kwContinue
  | kwDeclare
  | kwDefault
  | dirConstant
  | kwDo
  | kwEcho
  | kwElse
  | kwElseIf
  | kwEmpty
  | kwExit
  | kwExtends
  | fileConstant
  | kwFinal
  | kwFinally
  | kwFor
  | kwForeach
  | kwFunction
  | functionConstant
  | kwGlobal
  | kwIf
  | kwImplements
  | kwInclude
  | kwIncludeOnce
  | kwInstanceof
  | kwInsteadof
  | kwInterface
  | kwIsset
  | lineConstant
  | kwList
  | kwNamespace
  | namespaceConstant
  | kwNew
  | kwPrint
  | kwPrivate
  | kwProtected
  | kwPublic
  | kwRequire
  | kwRequireOnce
  | kwReturn
  | kwStatic
  | kwSwitch
  | kwThrow
  | kwTrait
  | traitConstant
  | kwTry
  | kwUnset
  | kwUse
  | kwVar
  | kwWhile
  | kwYield
  deriving DecidableEq, Repr

namespace Keyword

/-- How a keyword is written in the different places it shows up. -/
structure Entry where
  spelling : String
  name : String
  label : String

def entry : Keyword → Entry
  | .kwAbstract => ⟨"abstract", "T_ABSTRACT", "Abstract"⟩
  | .kwArray => ⟨"array", "T_ARRAY", "Array"⟩
  | .kwAs => ⟨"as", "T_AS", "As"⟩
  | .kwAsync => ⟨"async", "T_ASYNC", "Async"⟩
  | .kwAwait => ⟨"await", "T_AWAIT", "Await"⟩
  | .boolCast => ⟨"bool", "T_BOOL_CAST", "BoolCast"⟩
  | .kwBreak => ⟨"break", "T_BREAK", "Break"⟩
  | .kwCallable => ⟨"callable", "T_CALLABLE", "Callable"⟩
  | .kwCase => ⟨"case", "T_CASE", "Case"⟩
  | .kwCatch => ⟨"catch", "T_CATCH", "Catch"⟩
  | .kwClass => ⟨"class", "T_CLASS", "Class"⟩
  | .classConstant => ⟨"__CLASS__", "T_CLASS_C", "ClassConstant"⟩
  | .kwClone => ⟨"clone", "T_CLONE", "Clone"⟩
  | .kwConst => ⟨"const", "T_CONST", "Const"⟩
  | .kwContinue => ⟨"continue", "T_CONTINUE", "Continue"⟩
  | .kwDeclare => ⟨"declare", "T_DECLARE", "Declare"⟩
  | .kwDefault => ⟨"default", "T_DEFAULT", "Default"⟩
  | .dirConstant => ⟨"__DIR__", "T_DIR", "DirConstant"⟩
  | .kwDo => ⟨"do", "T_DO", "Do"⟩
  | .kwEcho => ⟨"echo", "T_ECHO", "Echo"⟩
  | .kwElse => ⟨"else", "T_ELSE", "Else"⟩
  | .kwElseIf => ⟨"elseif", "T_ELSEIF", "ElseIf"⟩
  | .kwEmpty => ⟨"empty", "T_EMPTY", "Empty"⟩
  | .kwExit => ⟨"exit", "T_EXIT", "Exit"⟩
  | .kwExtends => ⟨"extends", "T_EXTENDS", "Extends"⟩
  | .fileConstant => ⟨"__FILE__", "T_FILE", "FileConstant"⟩
  | .kwFinal => ⟨"final", "T_FINAL", "Final"⟩
  | .kwFinally => ⟨"finally", "T_FINALLY", "Finally"⟩
  | .kwFor => ⟨"for", "T_FOR", "For"⟩
  | .kwForeach => ⟨"foreach", "T_FOREACH", "Foreach"⟩
  | .kwFunction => ⟨"function", "T_FUNCTION", "Function"⟩
  | .functionConstant => ⟨"__FUNCTION__", "T_FUNC_C", "FunctionConstant"⟩
  | .kwGlobal => ⟨"global", "T_GLOBAL", "Global"⟩
  | .kwIf => ⟨"if", "T_IF", "If"⟩
  | .kwImplements => ⟨"implements", "T_IMPLEMENTS", "Implements"⟩
  | .kwInclude => ⟨"include", "T_INCLUDE", "Include"⟩
  | .kwIncludeOnce => ⟨"include_once", "T_INCLUDE_ONCE", "IncludeOnce"⟩
  | .kwInstanceof => ⟨"instanceof", "T_INSTANCEOF", "Instanceof"⟩
  | .kwInsteadof => ⟨"insteadof", "T_INSTEADOF", "Insteadof"⟩
  | .kwInterface => ⟨"interface", "T_INTERFACE", "Interface"⟩
  | .kwIsset => ⟨"isset", "T_ISSET", "Isset"⟩
  | .lineConstant => ⟨"__LINE__", "T_LINE", "LineConstant"⟩
  | .kwList => ⟨"list", "T_LIST", "List"⟩
  | .kwNamespace => ⟨"namespace", "T_NAMESPACE", "Namespace"⟩
  | .namespaceConstant => ⟨"__NAMESPACE__", "T_NS_C", "NamespaceConstant"⟩
  | .kwNew => ⟨"new", "T_NEW", "New"⟩
  | .kwPrint => ⟨"print", "T_PRINT", "Print"⟩
  | .kwPrivate => ⟨"private", "T_PRIVATE", "Private"⟩
  | .kwProtected => ⟨"protected", "T_PROTECTED", "Protected"⟩
  | .kwPublic => ⟨"public", "T_PUBLIC", "Public"⟩
  | .kwRequire => ⟨"require", "T_REQUIRE", "Require"⟩
  | .kwRequireOnce => ⟨"require_once", "T_REQUIRE_ONCE", "RequireOnce"⟩
  | .kwReturn => ⟨"return", "T_RETURN", "Return"⟩
  | .kwStatic => ⟨"static", "T_STATIC", "Static"⟩
  | .kwSwitch => ⟨"switch", "T_SWITCH", "Switch"⟩
  | .kwThrow => ⟨"throw", "T_THROW", "Throw"⟩
  | .kwTrait => ⟨"trait", "T_TRAIT", "Trait"⟩
  | .traitConstant => ⟨"__TRAIT__", "T_TRAIT_C", "TraitConstant"⟩
  | .kwTry => ⟨"try", "T_TRY", "Try"⟩
  | .kwUnset => ⟨"unset", "T_UNSET", "Unset"⟩
  | .kwUse => ⟨"use", "T_USE", "Use"⟩
  | .kwVar => ⟨"var", "T_VAR", "Var"⟩
  | .kwWhile => ⟨"while", "T_WHILE", "While"⟩
  | .kwYield => ⟨"yield", "T_YIELD", "Yield"⟩

/-- The canonical spelling in source texts. -/
def spelling (keyword : Keyword) : String :=
  keyword.entry.spelling

/-- The stable name, as in `T_ABSTRACT`. -/
def name (keyword : Keyword) : String :=
  keyword.entry.name

def label (keyword : Keyword) : String :=
  keyword.entry.label

/-- Every keyword once. -/
def all : List Keyword :=
  [
    .kwAbstract, .kwArray, .kwAs, .kwAsync, .kwAwait, .boolCast, .kwBreak, .kwCallable,
    .kwCase, .kwCatch, .kwClass, .classConstant, .kwClone, .kwConst, .kwContinue,
    .kwDeclare, .kwDefault, .dirConstant, .kwDo, .kwEcho, .kwElse, .kwElseIf, .kwEmpty,
    .kwExit, .kwExtends, .fileConstant, .kwFinal, .kwFinally, .kwFor, .kwForeach,
    .kwFunction, .functionConstant, .kwGlobal, .kwIf, .kwImplements, .kwInclude,
    .kwIncludeOnce, .kwInstanceof, .kwInsteadof, .kwInterface, .kwIsset, .lineConstant,
    .kwList, .kwNamespace, .namespaceConstant, .kwNew, .kwPrint, .kwPrivate,
    .kwProtected, .kwPublic, .kwRequire, .kwRequireOnce, .kwReturn, .kwStatic,
    .kwSwitch, .kwThrow, .kwTrait, .traitConstant, .kwTry, .kwUnset, .kwUse, .kwVar,
    .kwWhile, .kwYield]

/-- The keyword that a word spells.  `boolean` is a second spelling of `bool`;
all other keywords have one spelling, in which case matters. -/
def ofSpelling? (word : List Char) : Option Keyword :=
  if word = "boolean".toList then
    some .boolCast
  else
    all.find? fun keyword => keyword.spelling.toList == word

theorem mem_all (keyword : Keyword) : keyword ∈ all := by
  cases keyword <;> decide

theorem ofSpelling?_spelling (keyword : Keyword) :
    ofSpelling? keyword.spelling.toList = some keyword := by
  -- One decision for the whole table, so that each spelling is decoded only once.
  have table : ∀ listed, listed ∈ all → ofSpelling? listed.spelling.toList = some listed := by
    decide +kernel
  exact table keyword keyword.mem_all

theorem ofSpelling?_boolean : ofSpelling? "boolean".toList = some .boolCast := rfl

theorem ofSpelling?_eq_some_iff {word : List Char} {keyword : Keyword} :
    ofSpelling? word = some keyword ↔
      word = keyword.spelling.toList ∨ keyword = .boolCast ∧ word = "boolean".toList := by
  constructor
  · intro found
    unfold ofSpelling? at found
    split at found
    · rename_i boolean
      exact .inr ⟨(Option.some.inj found).symm, boolean⟩
    · have spelled := List.find?_some found
      exact .inl (eq_of_beq spelled).symm
  · rintro (rfl | ⟨rfl, rfl⟩)
    · exact ofSpelling?_spelling keyword
    · exact ofSpelling?_boolean

theorem ofSpelling?_eq_none_iff {word : List Char} :
    ofSpelling? word = none ↔
      word ≠ "boolean".toList ∧ ∀ keyword : Keyword, word ≠ keyword.spelling.toList := by
  constructor
  · intro missing
    constructor
    · rintro rfl
      cases ofSpelling?_boolean.symm.trans missing
    · rintro keyword rfl
      cases (ofSpelling?_spelling keyword).symm.trans missing
  · rintro ⟨noBoolean, noSpelling⟩
    cases found : ofSpelling? word with
    | none => rfl
    | some keyword =>
        rcases ofSpelling?_eq_some_iff.mp found with spelled | ⟨_, boolean⟩
        · exact absurd spelled (noSpelling keyword)
        · exact absurd boolean noBoolean

/-- What is said about a word that spells no keyword. -/
def unknownMessage : String :=
  "invalid string representation of keyword."

end Keyword

end HackLexer
