/-! Topic names and subscription patterns. A pattern is a topic that may end in
a whole level `*`, which stands for everything below; on the wire that level is
written `#`. The wire's own signs `#`, `+` and `$` are refused everywhere. -/
namespace Courier

inductive TopicFault where
  | empty
  | tooLong
  | containsNull
  | reserved (sign : Char)
  | misplacedWildcard
  | wildcardInTopic
  deriving DecidableEq

namespace Topic

/-- Limit in bytes of the UTF-8 form. -/
def maxBytes : Nat := 1024

def patternWildcard : Char := '*'

def filterWildcard : Char := '#'

def isReserved (c : Char) : Bool := c == '#' || c == '+' || c == '$'

end Topic

namespace TopicFault

def message : TopicFault → String
  | empty => "topic cannot be empty"
  | tooLong => s!"topic exceeds maximum length of {Topic.maxBytes} bytes"
  | containsNull => "topic cannot contain null character"
  | reserved sign => "topic cannot contain reserved character '" ++ sign.toString ++ "'"
  | misplacedWildcard => "wildcard (*) is only allowed as the whole last level"
  | wildcardInTopic => "wildcard (*) not allowed in publish topics"

end TopicFault

namespace Topic

/-- What topics and patterns have in common; the first fault in this order is
reported. -/
def check (text : String) : Except TopicFault Unit :=
  if text.isEmpty then .error .empty
  else if maxBytes < text.utf8ByteSize then .error .tooLong
  else if text.toList.contains '\x00' then .error .containsNull
  else match text.toList.find? isReserved with
    | some sign => .error (.reserved sign)
    | none => .ok ()

/-- The wire form of a pattern: its first `*` must be the last character and
fill its level. -/
def wireForm? (pattern : List Char) : Option (List Char) :=
  let before := pattern.takeWhile (· ≠ patternWildcard)
  match pattern.dropWhile (· ≠ patternWildcard) with
  | [] => some pattern
  | [_] =>
    if before.getLast?.all (· = '/') then some (before ++ [filterWildcard]) else none
  | _ => none

/-- The filter a subscription pattern stands for. -/
def toFilter (pattern : String) : Except TopicFault String := do
  check pattern
  match wireForm? pattern.toList with
  | some filter => .ok (String.ofList filter)
  | none => .error .misplacedWildcard

/-- A publication goes to exactly one topic. -/
def checkPublish (topic : String) : Except TopicFault Unit := do
  check topic
  if topic.toList.contains patternWildcard then .error .wildcardInTopic else .ok ()

end Topic

end Courier
