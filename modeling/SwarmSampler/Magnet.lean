import SwarmSampler.Text.Base32
import SwarmSampler.Text.Blank
import SwarmSampler.Text.Hex
import SwarmSampler.Text.Utf8

/-
Magnet links and the info-hash they name. A link is `magnet:?` and parameters;
the first exact topic `xt=urn:btih:` with a proper end decides, written as 40
hexadecimal digits or 32 digits of base 32. A wrong first topic is not rescued
by a later one. Both spellings give the same twenty bytes.
-/

namespace SwarmSampler

/-- What names a swarm: twenty bytes. -/
structure InfoHash where
  bytes : List UInt8
  length_eq : bytes.length = 20
  deriving DecidableEq

namespace InfoHash

def digits (h : InfoHash) : List Char := Text.hexBytes h.bytes

def text (h : InfoHash) : String := String.ofList h.digits

/-- The hash of some bytes, none unless there are twenty. -/
def ofBytes? (bytes : List UInt8) : Option InfoHash :=
  if h : bytes.length = 20 then some ⟨bytes, h⟩ else none

end InfoHash

namespace Magnet

inductive Fault
  | noScheme
  | noTopic
  | badBase32 (raw : String)
  | badLength (raw : String)
  deriving DecidableEq

def Fault.message : Fault → String
  | noScheme => "missing magnet:? prefix"
  | noTopic => "no urn:btih exact topic"
  | badBase32 raw => "bad base32 info-hash '" ++ raw ++ "'"
  | badLength raw => "info-hash '" ++ raw ++ "' has unexpected length"

def scheme : List Char := "magnet:?".toList

/-- How the exact topic starts, in any letter case. -/
def topic : List Char := "xt=urn:btih:".toList

/-- Letters and digits, with the two signs beyond ASCII that fold to `s` and `k`. -/
def isTopicChar (c : Char) : Bool :=
  Text.isDigit c || Text.isLetter c || c == '\u017F' || c == '\u212A'

/-- Whether parameters may end here: at the next one, or with the text. -/
def endsParameter : List Char → Bool
  | [] => true
  | c :: _ => c == '&'

/-- The value of a topic that starts right here and ends properly. -/
def topicHere? (s : List Char) : Option (List Char) :=
  let rest := s.drop topic.length
  let raw := rest.takeWhile isTopicChar
  if Text.sameFolded (s.take topic.length) topic && raw != [] &&
      endsParameter (rest.dropWhile isTopicChar)
  then some raw
  else none

/-- The leftmost topic that follows a `?` or an `&`. -/
def topicAfterMark? : List Char → Option (List Char)
  | [] => none
  | c :: s =>
    if c == '?' || c == '&' then (topicHere? s).or (topicAfterMark? s) else topicAfterMark? s

def firstTopic? (query : List Char) : Option (List Char) :=
  (topicHere? query).or (topicAfterMark? query)

/-- The hash a topic's value stands for, told apart by its length in bytes. -/
def hashOfTopic (raw : List Char) : Except Fault InfoHash :=
  if Text.byteLength raw = 40 ∧ raw.all Text.isHexDigit then
    match (Text.bytesOfHex? raw).bind InfoHash.ofBytes? with
    | some h => .ok h
    | none => .error (.badLength (String.ofList raw))
  else if Text.byteLength raw = 32 then
    match (Text.Base32.decode? (raw.map Text.upper)).bind InfoHash.ofBytes? with
    | some h => .ok h
    | none => .error (.badBase32 (String.ofList raw))
  else .error (.badLength (String.ofList raw))

def parseList (link : List Char) : Except Fault InfoHash :=
  match Text.dropPrefix? scheme (Text.trimList link) with
  | none => .error .noScheme
  | some query =>
    match firstTopic? query with
    | none => .error .noTopic
    | some raw => hashOfTopic raw

def parse (link : String) : Except Fault InfoHash := parseList link.toList

end Magnet

end SwarmSampler
