import DiffGate.Fault
import DiffGate.Text.Quoted
import DiffGate.Text.Utf8
import DiffGate.Yaml.Source

/-!
# Why a text is no YAML document

An error has a problem and the place where it was met and, often, what was being read and where that
began. Besides, a text may hold a value that is well-formed and cannot be had, such as the 45th of a
month; that is a fault and not an error of the text.
-/

set_option autoImplicit false

namespace DiffGate.Yaml

/-- What was being read. -/
inductive Context
  | nextToken
  | simpleKey
  | directive
  | anchor
  | alias
  /-- Scanning a tag. -/
  | tag
  /-- Reading a tag's address. -/
  | tagAddress
  | directiveAddress
  | blockScalar
  | doubleQuoted
  | quoted
  | node
  | blockNode
  | flowNode
  | blockCollection
  | blockMapping
  | flowSequence
  | flowMapping
  | duplicateAnchor (name : Text)
  | singleDocument
  | constructingMapping
  | constructingOrderedMap
  | constructingPairs
  deriving DecidableEq

/-- What is wrong. -/
inductive Problem
  /-- A character that no text may hold. -/
  | unacceptable (c : Char)
  | cannotStartToken (c : Option Char)
  | noColon
  | entryNotAllowed
  | keyNotAllowed
  | valueNotAllowed
  | notAlphanumeric (c : Option Char)
  | notDigit (c : Option Char)
  | notDigitOrDot (c : Option Char)
  | notDigitOrSpace (c : Option Char)
  | notSpace (c : Option Char)
  | notCommentOrBreak (c : Option Char)
  | notClosed (c : Option Char)
  | notExclamation (c : Option Char)
  | notAddress (c : Option Char)
  | notAddressEscape (c : Option Char)
  | addressNotUtf8 (flaw : Option Text.Utf8.Flaw)
  | zeroIndentation
  | notBlockIndicator (c : Option Char)
  | notHexEscape (width : Nat) (c : Option Char)
  | unknownEscape (c : Option Char)
  | endInQuotes
  | separatorInQuotes
  | noDocumentStart (found : Text)
  | duplicateVersion
  | incompatibleVersion
  | duplicateHandle (handle : Text)
  | undefinedHandle (handle : Text)
  | noContent (found : Text)
  | noBlockEnd (found : Text)
  | noSequenceEnd (found : Text)
  | noMappingEnd (found : Text)
  | undefinedAlias (name : Text)
  /-- An alias inside the node that it names. -/
  | recursiveAlias (name : Text)
  | secondAnchor
  | anotherDocument
  | unknownTag (tag : Text)
  | notScalar (kind : String)
  | notSequence (kind : String)
  | notMapping (kind : String)
  | notMergeable (kind : String)
  | notMergeableItem (kind : String)
  | keyNotScalar
  | notOrderedSequence (kind : String)
  | notOrderedItem (kind : String)
  | notSingleItem (count : Nat)
  | binaryNotAscii (t : Text)
  | binaryBadLength (count : Nat)
  | binaryBadPadding
  deriving DecidableEq

/-- What is wrong with a text, where, and inside what. -/
structure Error where
  context : Option (Context × Mark)
  problem : Problem
  mark : Mark
  deriving DecidableEq

/-- Why there is no data: an error of the text, or a value that cannot be had. -/
inductive Failure
  | malformed (e : Error)
  | fault (f : Fault)
  deriving DecidableEq

/-- Fails inside a context. -/
def failIn {α : Type} (context : Context) (began : Mark) (problem : Problem) (mark : Mark) :
    Except Failure α :=
  .error (.malformed ⟨some (context, began), problem, mark⟩)

/-- Fails without a context. -/
def failAt {α : Type} (problem : Problem) (mark : Mark) : Except Failure α :=
  .error (.malformed ⟨none, problem, mark⟩)

namespace Context

/-- What was being read, in words. -/
def text : Context → Text
  | .nextToken => "while scanning for the next token".toList
  | .simpleKey => "while scanning a simple key".toList
  | .directive => "while scanning a directive".toList
  | .anchor => "while scanning an anchor".toList
  | .alias => "while scanning an alias".toList
  | .tag => "while scanning a tag".toList
  | .tagAddress => "while parsing a tag".toList
  | .directiveAddress => "while parsing a directive".toList
  | .blockScalar => "while scanning a block scalar".toList
  | .doubleQuoted => "while scanning a double-quoted scalar".toList
  | .quoted => "while scanning a quoted scalar".toList
  | .node => "while parsing a node".toList
  | .blockNode => "while parsing a block node".toList
  | .flowNode => "while parsing a flow node".toList
  | .blockCollection => "while parsing a block collection".toList
  | .blockMapping => "while parsing a block mapping".toList
  | .flowSequence => "while parsing a flow sequence".toList
  | .flowMapping => "while parsing a flow mapping".toList
  | .duplicateAnchor name =>
    "found duplicate anchor ".toList ++ Text.quoted name ++ "; first occurrence".toList
  | .singleDocument => "expected a single document in the stream".toList
  | .constructingMapping => "while constructing a mapping".toList
  | .constructingOrderedMap => "while constructing an ordered map".toList
  | .constructingPairs => "while constructing pairs".toList

end Context

namespace Problem

/-- A character in quotes; the end of the text is shown as NUL. -/
def char (c : Option Char) : Text := Text.quoted [c.getD '\x00']

/-- The positions of some of the items of a sequence: one, or the first and the last. -/
def positions (start size : Nat) : Text :=
  " in position ".toList ++ Text.ofNat start ++
    (if size = 1 then [] else '-' :: Text.ofNat (start + size - 1))

/-- A cause, in words. -/
def causeText : Text.Utf8.Cause → String
  | .badStart => ": invalid start byte"
  | .badContinuation => ": invalid continuation byte"
  | .cutOff => ": unexpected end of data"

/-- What is said about bytes that are no UTF-8. -/
def flawText (f : Text.Utf8.Flaw) : Text :=
  "'utf-8' codec can't decode byte".toList ++
    (if f.size = 1 then " 0x".toList ++ Text.hex 2 f.first.toNat else ['s']) ++
    positions f.start f.size ++ (causeText f.cause).toList

/-- Characters that are not ASCII. -/
def isForeign (c : Char) : Bool := 128 ≤ c.toNat

/-- What is said about the first characters of a text that are not ASCII. -/
def notAscii (t : Text) : Text :=
  let start := (t.takeWhile (!isForeign ·)).length
  let run := (t.drop start).takeWhile isForeign
  let subject :=
    match run with
    | [c] => " '".toList ++ Text.escapeCode c ++ ['\'']
    | _ => ['s']
  "'ascii' codec can't encode character".toList ++ subject ++ positions start run.length ++
    ": ordinal not in range(128)".toList

/-- What is wrong, in words. -/
def text : Problem → Text
  | .unacceptable c =>
    "unacceptable character #x".toList ++ Text.hex 4 c.toNat ++
      ": special characters are not allowed".toList
  | .cannotStartToken c =>
    "found character ".toList ++ char c ++ " that cannot start any token".toList
  | .noColon => "could not find expected ':'".toList
  | .entryNotAllowed => "sequence entries are not allowed here".toList
  | .keyNotAllowed => "mapping keys are not allowed here".toList
  | .valueNotAllowed => "mapping values are not allowed here".toList
  | .notAlphanumeric c =>
    "expected alphabetic or numeric character, but found ".toList ++ char c
  | .notDigit c => "expected a digit, but found ".toList ++ char c
  | .notDigitOrDot c => "expected a digit or '.', but found ".toList ++ char c
  | .notDigitOrSpace c => "expected a digit or ' ', but found ".toList ++ char c
  | .notSpace c => "expected ' ', but found ".toList ++ char c
  | .notCommentOrBreak c => "expected a comment or a line break, but found ".toList ++ char c
  | .notClosed c => "expected '>', but found ".toList ++ char c
  | .notExclamation c => "expected '!', but found ".toList ++ char c
  | .notAddress c => "expected URI, but found ".toList ++ char c
  | .notAddressEscape c =>
    "expected URI escape sequence of 2 hexadecimal numbers, but found ".toList ++ char c
  | .addressNotUtf8 flaw => (flaw.map flawText).getD []
  | .zeroIndentation => "expected indentation indicator in the range 1-9, but found 0".toList
  | .notBlockIndicator c =>
    "expected chomping or indentation indicators, but found ".toList ++ char c
  | .notHexEscape width c =>
    "expected escape sequence of ".toList ++ Text.ofNat width ++
      " hexadecimal numbers, but found ".toList ++ char c
  | .unknownEscape c => "found unknown escape character ".toList ++ char c
  | .endInQuotes => "found unexpected end of stream".toList
  | .separatorInQuotes => "found unexpected document separator".toList
  | .noDocumentStart found =>
    "expected '<document start>', but found ".toList ++ Text.quoted found
  | .duplicateVersion => "found duplicate YAML directive".toList
  | .incompatibleVersion =>
    "found incompatible YAML document (version 1.* is required)".toList
  | .duplicateHandle handle => "duplicate tag handle ".toList ++ Text.quoted handle
  | .undefinedHandle handle => "found undefined tag handle ".toList ++ Text.quoted handle
  | .noContent found => "expected the node content, but found ".toList ++ Text.quoted found
  | .noBlockEnd found => "expected <block end>, but found ".toList ++ Text.quoted found
  | .noSequenceEnd found => "expected ',' or ']', but got ".toList ++ Text.quoted found
  | .noMappingEnd found => "expected ',' or '\x7d', but got ".toList ++ Text.quoted found
  | .undefinedAlias name => "found undefined alias ".toList ++ Text.quoted name
  | .recursiveAlias name => "found recursive alias ".toList ++ Text.quoted name
  | .secondAnchor => "second occurrence".toList
  | .anotherDocument => "but found another document".toList
  | .unknownTag tag => "could not determine a constructor for the tag ".toList ++ Text.quoted tag
  | .notScalar kind => "expected a scalar node, but found ".toList ++ kind.toList
  | .notSequence kind => "expected a sequence node, but found ".toList ++ kind.toList
  | .notMapping kind => "expected a mapping node, but found ".toList ++ kind.toList
  | .notMergeable kind =>
    "expected a mapping or list of mappings for merging, but found ".toList ++ kind.toList
  | .notMergeableItem kind => "expected a mapping for merging, but found ".toList ++ kind.toList
  | .keyNotScalar => "found unhashable key".toList
  | .notOrderedSequence kind => "expected a sequence, but found ".toList ++ kind.toList
  | .notOrderedItem kind => "expected a mapping of length 1, but found ".toList ++ kind.toList
  | .notSingleItem count =>
    "expected a single mapping item, but found ".toList ++ Text.ofNat count ++ " items".toList
  | .binaryNotAscii t => "failed to convert base64 data into ascii: ".toList ++ notAscii t
  | .binaryBadLength count =>
    ("failed to decode base64 data: Invalid base64-encoded string: " ++
      "number of data characters (").toList ++ Text.ofNat count ++
      ") cannot be 1 more than a multiple of 4".toList
  | .binaryBadPadding => "failed to decode base64 data: Incorrect padding".toList

end Problem

/-- What is wrong with the file `name`: the context and the place where it began, if that is another
place, then the problem and its place, each on a line of its own. A character that no text may hold
is placed by its index alone. -/
def Error.message (name : Text) (e : Error) : Text :=
  match e.problem with
  | .unacceptable _ =>
    e.problem.text ++ "\n  in \"".toList ++ name ++ "\", position ".toList ++
      Text.ofNat e.mark.index
  | _ =>
    let context :=
      match e.context with
      | none => []
      | some (context, began) =>
        if began.line = e.mark.line ∧ began.column = e.mark.column then [context.text]
        else [context.text, began.text name]
    Text.join ['\n'] (context ++ [e.problem.text, e.mark.text name])

end DiffGate.Yaml
