import MutationTesting.Text.Blank
import MutationTesting.Decimal.Digits
/-!
# Transcripts of test runs

The raw output of the test runner on a device. One test runs at a time: the status code after the
one that announces its start is its result.

## Main definitions

* `TestReport`, `TestReport.ofTranscript`
-/

namespace MutationTesting

open Decimal

/-- What a transcript says about its test. -/
structure TestReport where
  /-- The test ran to its end, whatever the result. -/
  executed : Bool
  passed : Bool
  failureCause : Option String
  /-- Where on the device the coverage file lies. -/
  coveragePath : Option String
  deriving DecidableEq

namespace TestReport

/-- The runner reports that it could not run the test. -/
def failedMarker : String := "INSTRUMENTATION_FAILED"

/-- A status value follows. -/
def statusMarker : String := "INSTRUMENTATION_STATUS: "

/-- A status code follows. -/
def codeMarker : String := "INSTRUMENTATION_STATUS_CODE: "

/-- The status code of a test that starts. -/
def startMarker : String := "INSTRUMENTATION_STATUS_CODE: 1"

/-- The key of an error among the status values. -/
def errorKey : String := "Error="

/-- The key of the coverage file. -/
def coverageKey : String := "coverageFilePath="

/-- How many status values are searched for an error. -/
def statusLimit : Nat := 4096

/-- The text after a beginning that it must have. -/
def stripStart? (start : List Char) (text : List Char) : Option (List Char) :=
  if start.isPrefixOf text then some (text.drop start.length) else none

/-- The text after the first occurrence of a marker. -/
def after? (marker : List Char) : List Char → Option (List Char)
  | [] => if marker.isEmpty then some [] else none
  | c :: rest =>
    match stripStart? marker (c :: rest) with
    | some found => some found
    | none => after? marker rest

/-- The text up to the end of its first line, without carriage returns at the end. -/
def restOfLine (text : List Char) : List Char :=
  ((text.takeWhile (· != '\n')).reverse.dropWhile (· == '\r')).reverse

/-- The first error among the status values, of which at most `limit` are looked at. -/
def errorCause? : Nat → List Char → Option (List Char)
  | 0, _ => none
  | limit + 1, text =>
    match after? statusMarker.toList text with
    | none => none
    | some rest =>
      match stripStart? errorKey.toList (restOfLine rest) with
      | some cause => some cause
      | none => errorCause? limit rest

/-- The number of digits with an optional sign. -/
def signedNumber? : List Char → Option Int
  | '-' :: ds => (number? ds).map fun n => -(n : Int)
  | '+' :: ds => (number? ds).map fun n => (n : Int)
  | ds => (number? ds).map fun n => (n : Int)
where
  /-- The number of digits, of which there must be one. -/
  number? (ds : List Char) : Option Nat :=
    if ds.isEmpty then none
    else ds.foldl (fun n c => n.bind fun n => (digitValue? c).map (n * 10 + ·)) (some 0)

/-- A 32-bit status code. -/
def statusCode? (text : List Char) : Option Int :=
  (signedNumber? text).bind fun n =>
    if -(Nat.pow 2 31 : Nat) ≤ n ∧ n < (Nat.pow 2 31 : Nat) then some n else none

/-- The test was not run, for the given cause. -/
def notExecuted (cause : String) : TestReport := ⟨false, false, some cause, none⟩

/-- The report of a test with the given status code. -/
def ofCode (code : Int) (coveragePath : Option String) : TestReport :=
  if code = 0 then ⟨true, true, none, coveragePath⟩
  else if code < 0 then ⟨true, false, none, coveragePath⟩
  else
    ⟨true, false, some ("Unexpected test result value: " ++ toString code), coveragePath⟩

/-- The coverage path in a text. -/
def coveragePath? (text : List Char) : Option String :=
  (after? coverageKey.toList text).bind fun rest =>
    let path := trim (restOfLine rest)
    if path.isEmpty then none else some (String.ofList path)

/-- The report in a transcript that has no failure marker. -/
def ofRun (text : List Char) : TestReport :=
  let missing := notExecuted "Could not find test result in command output"
  match after? startMarker.toList text with
  | none => missing
  | some started =>
    match after? codeMarker.toList started with
    | none => missing
    | some rest =>
      let value := trim (restOfLine rest)
      match statusCode? value with
      | some code => ofCode code (coveragePath? started)
      | none =>
        notExecuted ("Could not parse result string (" ++ String.ofList value ++ ")")

/-- The report in a transcript. -/
def ofTranscript (transcript : String) : TestReport :=
  let text := transcript.toList
  match after? failedMarker.toList text with
  | some _ =>
    notExecuted (match errorCause? statusLimit text with
      | some cause => String.ofList cause
      | none => "<cause unknown>")
  | none => ofRun text

end TestReport

end MutationTesting
