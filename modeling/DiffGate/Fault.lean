/-!
# Faults: what nobody explains

The gate trusts the shape of what it is given in more places than it should. Where a document holds
a number instead of a list, or a record has no text where text is needed, the run stops with a
fault: no message is made of it, only its cause is known.
-/

set_option autoImplicit false

namespace DiffGate

/-- Why a run stops without an explanation. -/
inductive Fault
  /-- A scalar where a list is needed. -/
  | notACollection
  /-- A list of texts holds something that is not empty and no text. -/
  | entryNotText
  /-- A list of texts holds bytes that are not blank. -/
  | entryIsBytes
  /-- A rule code is present and no text. -/
  | codeNotText
  /-- A finding's file is no text. -/
  | fileNotText
  /-- A finding's message is no text. -/
  | messageNotText
  /-- A finding's line is a list or a mapping, which no set can hold. -/
  | lineNotKey
  /-- Two positions cannot be compared. -/
  | incomparable
  /-- A linter's record is no mapping. -/
  | recordNotMapping
  /-- A record's location is no mapping. -/
  | locationNotMapping
  /-- A number has more digits than are read or written. -/
  | overlongNumber
  /-- A date that the calendar does not have. -/
  | noSuchDate
  /-- A value tagged as a date is not written as one. -/
  | notADate
  /-- A number is tagged as such but not written as one. -/
  | notANumber
  /-- A truth value is tagged as such but not written as one. -/
  | notATruthValue
  /-- An empty text is tagged as a number. -/
  | emptyNumber
  /-- An escape names a code point beyond the last. -/
  | noSuchCharacter
  /-- An escape names a number that is too great for any machine's code points. -/
  | oversizedEscape
  /-- A path holds the character NUL. -/
  | nulInPath
  /-- Bytes that are not UTF-8. -/
  | notUtf8
  /-- A lone surrogate where bytes are to be written. -/
  | unencodable
  /-- A directory where a file is read. -/
  | isDirectory
  /-- A glob holds a range that runs backward. -/
  | reversedRange
  deriving DecidableEq

end DiffGate
