import StormReview.Js.Scan

/-! privacyGuard: full postcodes are cut to their district, titled names are redacted. -/
namespace StormReview
open Js Regex

def upper : Regex := .unit isUpper
def lower : Regex := .unit isLower

/-- The group of `FULL_POSTCODE_RE` with the word border before it: `\b([A-Z]{1,2}\d[A-Z\d]?)`. -/
def districtRe : Regex :=
  chain [.boundary, upper, opt upper, digit, opt (.unit fun u => isUpper u || isDigit u)]

/-- The rest of `FULL_POSTCODE_RE`: `\s*\d[A-Z]{2}\b`. -/
def inwardRe : Regex := chain [.star space, digit, upper, upper, .boundary]

def fullPostcodeRe : Regex := .seq districtRe inwardRe

/-- `[A-Z][a-z]+`. -/
def nameWord : Regex := .seq upper (plus lower)

/-- `\b(Mr|Mrs|Ms|Miss|Dr|Mx)\.?\s+[A-Z][a-z]+(?:\s+[A-Z][a-z]+)?`. -/
def titledNameRe : Regex :=
  chain [.boundary, oneOf [word "Mr", word "Mrs", word "Ms", word "Miss", word "Dr", word "Mx"],
    opt (char '.'), plus space, nameWord, opt (.seq (plus space) nameWord)]

structure PrivacyResult where
  clean : Text
  redactions : Nat
  deriving DecidableEq

def truncatePostcodes (text : Text) : Text :=
  replaceAll (districtRe.group inwardRe) (fun _ district => district) text

def redactNames (text : Text) : Text :=
  replaceAll titledNameRe.first (fun _ _ => lit "[customer]") text

def pseudonymise (text : Text) : PrivacyResult :=
  if text = [] then { clean := text, redactions := 0 }
  else
    let clean := truncatePostcodes text
    { clean := redactNames clean
      redactions := hits (tokens (districtRe.group inwardRe) none text) +
        hits (tokens titledNameRe.first none clean) }

end StormReview
