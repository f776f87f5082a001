import StormReview.Js.Scan

/-! injectionGuard: sentences that read like instructions are taken out of a narrative. -/
namespace StormReview
open Js Regex

structure InjectionPattern where
  re : Regex
  label : Text

def injectionPatterns : List InjectionPattern :=
  [{ re := chain [wordI "ignore", plus space, opt (.seq (wordI "all") (plus space)),
        opt (.seq (wordI "your") (plus space)),
        oneOf [wordI "previous", wordI "prior", wordI "above", wordI "earlier"],
        plus space, wordI "instructions"]
     label := lit "ignore-previous-instructions" },
   { re := chain [wordI "disregard", plus space, opt (.seq (wordI "all") (plus space)),
        opt (.seq (wordI "the") (plus space)), opt (oneOf [wordI "previous", wordI "prior"]),
        .star space,
        oneOf [wordI "instructions", wordI "rules", wordI "guidance", wordI "guidelines"]]
     label := lit "disregard-instructions" },
   { re := chain [.boundary, wordI "you must", .boundary]
     label := lit "imperative-you-must" },
   { re := chain [wordI "recommend", plus space,
        oneOf [wordI "payment", wordI "approval", wordI "approve", wordI "paying",
          wordI "to pay", wordI "settlement in full", wordI "in full"]]
     label := lit "recommend-payment" },
   { re := chain [.boundary, wordI "approve", plus space,
        oneOf [wordI "my", wordI "the", wordI "this"], plus space, wordI "claim", .boundary]
     label := lit "approve-claim" },
   { re := chain [.boundary, wordI "system", .star space, charI ':']
     label := lit "fake-system-prompt" },
   { re := chain [.boundary, wordI "new instructions", .boundary]
     label := lit "new-instructions" }]

structure InjectionRemoval where
  fragment : Text
  label : Text
  deriving DecidableEq

structure InjectionResult where
  clean : Text
  removed : List InjectionRemoval
  deriving DecidableEq

def isTerminator (u : UInt16) : Bool := u == cu '.' || u == cu '!' || u == cu '?'

/-- The separator `(?<=[.!?])\s+`. -/
def sentenceBreak : Regex := .seq (.behind isTerminator) (plus space)

def splitSentences (text : Text) : List Text := split sentenceBreak.first text

/-- The first pattern that a sentence matches. -/
def injectionHit (sentence : Text) : Option InjectionPattern :=
  injectionPatterns.find? fun p => p.re.test sentence

def removalOf (sentence : Text) : Option InjectionRemoval :=
  (injectionHit sentence).map fun p => { fragment := trim sentence, label := p.label }

/-- `.replace(/\s+/g, ' ').trim()`. -/
def squeeze (text : Text) : Text :=
  trim (replaceAll (plus space).first (fun _ _ => lit " ") text)

def removalMarker (n : Nat) : Text :=
  lit " [" ++ natText n ++ lit " instruction-shaped fragment(s) removed by injectionGuard]"

def sanitizeNarrative (text : Text) : InjectionResult :=
  if text = [] then { clean := text, removed := [] }
  else
    let removed := (splitSentences text).filterMap removalOf
    let kept := (splitSentences text).filter fun s => (injectionHit s).isNone
    let clean := squeeze (join (lit " ") kept)
    { clean := if removed.length > 0 then trim (clean ++ removalMarker removed.length) else clean
      removed }

/-! The clean text of a narrative is determined by the sentences kept and the number taken out. -/

def keptSentences (text : Text) : List Text :=
  (splitSentences text).filter fun s => (injectionHit s).isNone

def hitCount (text : Text) : Nat := (splitSentences text).countP fun s => (injectionHit s).isSome

def cleanOf (kept : List Text) (hits : Nat) : Text :=
  if hits > 0 then trim (squeeze (join (lit " ") kept) ++ removalMarker hits)
  else squeeze (join (lit " ") kept)

/-- The empty text, too, is one sentence that no pattern matches. -/
theorem sanitizeNarrative_removed (text : Text) :
    (sanitizeNarrative text).removed = (splitSentences text).filterMap removalOf := by
  by_cases h : text = []
  · subst h
    rfl
  · simp only [sanitizeNarrative, if_neg h]

theorem sanitizeNarrative_clean (text : Text) :
    (sanitizeNarrative text).clean = cleanOf (keptSentences text) (hitCount text) := by
  have hcount : ((splitSentences text).filterMap removalOf).length = hitCount text := by
    simp only [List.length_filterMap_eq_countP, removalOf, Option.isSome_map, hitCount]
  by_cases h : text = []
  · subst h
    rfl
  · simp only [sanitizeNarrative, if_neg h, hcount, cleanOf, keptSentences]

end StormReview
