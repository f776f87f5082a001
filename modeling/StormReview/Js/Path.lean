import StormReview.Js.Text

/-! POSIX path arithmetic on text, as `path.join` and `path.normalize` do it. -/
namespace Js.Path

def dot : Text := lit "."
def dots : Text := lit ".."
def slash : UInt16 := cu '/'

/-- One segment onto the segments so far, the last one first; `above` says whether leading
`..` segments are kept. -/
def push (above : Bool) (segs : List Text) (seg : Text) : List Text :=
  if seg = [] ∨ seg = dot then segs
  else if seg = dots then
    match segs with
    | [] => if above then [dots] else []
    | top :: rest => if top = dots then (if above then dots :: segs else segs) else rest
  else seg :: segs

/-- `normalizeString`. -/
def normalSegments (above : Bool) (path : Text) : List Text :=
  ((path.splitOn slash).foldl (push above) []).reverse

def isAbsolute (path : Text) : Bool := path.head? == some slash

def normalize (path : Text) : Text :=
  if path = [] then dot
  else
    let body := Js.join [slash] (normalSegments (!isAbsolute path) path)
    let trailing := path.getLast? == some slash
    if isAbsolute path then slash :: (if body ≠ [] ∧ trailing then body ++ [slash] else body)
    else if body = [] then (if trailing then dot ++ [slash] else dot)
    else if trailing then body ++ [slash] else body

def join (parts : List Text) : Text :=
  let joined := Js.join [slash] (parts.filter (· ≠ []))
  if joined = [] then dot else normalize joined

end Js.Path
