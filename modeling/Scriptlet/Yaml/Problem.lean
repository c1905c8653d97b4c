/-!
What can be wrong with a YAML document before its shape is looked at, and the words for it.
-/

namespace Scriptlet.Yaml

inductive Cause where
  | leadingOctet | incompleteOctets | trailingOctet | octetLength | badCharacter
  | controlCharacter | incompleteUnit | lowSurrogateFirst | incompletePair | missingLowSurrogate
  | keyWithoutColon | flowTooDeep | blocksTooDeep
  | noEntryHere | noKeyHere | noValueHere | noTokenStart
  | directiveName | directiveNameCharacter | unknownDirective | lineEndAfterDirective
  | versionNumber | versionTooLong | versionDot
  | anchorName
  | tagBang | tagAngle | tagUri | tagBlank | tagBlankOrBreak | escapedOctet
  | zeroIndentation | lineEndAfterHeader | tabInIndentation
  | documentInQuotes | endInQuotes | unknownEscape | hexDigits | escapedCharacter
  | tabInPlain
  | documentStart | repeatedVersion | wrongVersion | repeatedTag | undefinedTag
  | nodeContent | entryMark | blockKey | sequenceEnd | mappingEnd
  | unknownAnchor (name : String)
  | selfContaining (name : String)
  | wrongTag (found text wanted : String)
  | badBase64
  | mergeValue
  deriving DecidableEq, Repr

def Cause.message : Cause → String
  | .leadingOctet => "invalid leading UTF-8 octet"
  | .incompleteOctets => "incomplete UTF-8 octet sequence"
  | .trailingOctet => "invalid trailing UTF-8 octet"
  | .octetLength => "invalid length of a UTF-8 sequence"
  | .badCharacter => "invalid Unicode character"
  | .controlCharacter => "control characters are not allowed"
  | .incompleteUnit => "incomplete UTF-16 character"
  | .lowSurrogateFirst => "unexpected low surrogate area"
  | .incompletePair => "incomplete UTF-16 surrogate pair"
  | .missingLowSurrogate => "expected low surrogate area"
  | .keyWithoutColon => "could not find expected ':'"
  | .flowTooDeep => "exceeded max depth of 10000"
  | .blocksTooDeep => "exceeded max depth of 10000"
  | .noEntryHere => "block sequence entries are not allowed in this context"
  | .noKeyHere => "mapping keys are not allowed in this context"
  | .noValueHere => "mapping values are not allowed in this context"
  | .noTokenStart => "found character that cannot start any token"
  | .directiveName => "could not find expected directive name"
  | .directiveNameCharacter => "found unexpected non-alphabetical character"
  | .unknownDirective => "found unknown directive name"
  | .lineEndAfterDirective => "did not find expected comment or line break"
  | .versionNumber => "did not find expected version number"
  | .versionTooLong => "found extremely long version number"
  | .versionDot => "did not find expected digit or '.' character"
  | .anchorName => "did not find expected alphabetic or numeric character"
  | .tagBang => "did not find expected '!'"
  | .tagAngle => "did not find the expected '>'"
  | .tagUri => "did not find expected tag URI"
  | .tagBlank => "did not find expected whitespace"
  | .tagBlankOrBreak => "did not find expected whitespace or line break"
  | .escapedOctet => "did not find URI escaped octet"
  | .zeroIndentation => "found an indentation indicator equal to 0"
  | .lineEndAfterHeader => "did not find expected comment or line break"
  | .tabInIndentation => "found a tab character where an indentation space is expected"
  | .documentInQuotes => "found unexpected document indicator"
  | .endInQuotes => "found unexpected end of stream"
  | .unknownEscape => "found unknown escape character"
  | .hexDigits => "did not find expected hexdecimal number"
  | .escapedCharacter => "found invalid Unicode character escape code"
  | .tabInPlain => "found a tab character that violates indentation"
  | .documentStart => "did not find expected <document start>"
  | .repeatedVersion => "found duplicate %YAML directive"
  | .wrongVersion => "found incompatible YAML document"
  | .repeatedTag => "found duplicate %TAG directive"
  | .undefinedTag => "found undefined tag handle"
  | .nodeContent => "did not find expected node content"
  | .entryMark => "did not find expected '-' indicator"
  | .blockKey => "did not find expected key"
  | .sequenceEnd => "did not find expected ',' or ']'"
  | .mappingEnd => "did not find expected ',' or '\x7d'"
  | .unknownAnchor name => "unknown anchor '" ++ name ++ "' referenced"
  | .selfContaining name => "anchor '" ++ name ++ "' value contains itself"
  | .wrongTag found text wanted => "cannot decode " ++ found ++ " `" ++ text ++ "` as a " ++ wanted
  | .badBase64 => "!!binary value contains invalid base64 data"
  | .mergeValue => "map merge requires map or sequence of maps as the value"

/-- A cause and the line that is blamed for it, counted from one; line zero is not shown. -/
structure Problem where
  cause : Cause
  line : Nat := 0
  deriving DecidableEq, Repr

def Problem.message (p : Problem) : String :=
  (if p.line = 0 then "" else "line " ++ toString p.line ++ ": ") ++ p.cause.message

end Scriptlet.Yaml
