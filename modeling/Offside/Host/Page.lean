import Offside.Host.ExpressionReader

/-!
# Pages of the host language

What a compiled template says: text, values of expressions, variables that are set, branches and
loops.  A variable that is set in a loop is gone with the pass through the loop.

A page is read in two steps.  The text is cut at its tags (`PageSegment`), and the tags that belong
together are then brought together (`PageNode`).  A page that cannot be read is never rendered, not
even in part.
-/

namespace Offside

/-- A part of a page. -/
inductive PageNode where
  | text (value : Text)
  | output (e : Expression)
  | assign (name : Text) (e : Expression)
  | branches (cases : List (Expression × List PageNode)) (otherwise : List PageNode)
  | loop (name : Text) (items : Expression) (body otherwise : List PageNode)

/-! ## Segments -/

/-- A piece of a page between two places where it is cut. -/
inductive PageSegment where
  | text (value : Text)
  | output (e : Expression)
  | assign (name : Text) (e : Expression)
  | ifTag (e : Expression)
  | elifTag (e : Expression)
  | elseTag
  | endIfTag
  | forTag (name : Text) (items : Expression)
  | endForTag

namespace PageSegment

open Expression (symbol?)

/-- The end of a tag. -/
def tagEnd? (t : Text) : Option Text := symbol? "%\x7d" t

/-- A tag that is one word. -/
def word? (written : Text) (segment : PageSegment) (t : Text) : Option (PageSegment × Text) := do
  let rest ← symbol? written t
  return (segment, ← tagEnd? rest)

/-- A tag that is a word and an expression. -/
def wordWith? (written : Text) (make : Expression → PageSegment) (t : Text) :
    Option (PageSegment × Text) := do
  let rest ← symbol? written t
  let (e, rest) ← Expression.read? rest
  return (make e, ← tagEnd? rest)

/-- The tag that begins a loop. -/
def forTag? (t : Text) : Option (PageSegment × Text) := do
  let rest ← symbol? "for" t
  let (name, rest) ← Expression.name? rest
  let rest ← symbol? "in" rest
  let (items, rest) ← Expression.read? rest
  return (.forTag name items, ← tagEnd? rest)

/-- The tag that sets a variable. -/
def setTag? (t : Text) : Option (PageSegment × Text) := do
  let rest ← symbol? "set" t
  let (name, rest) ← Expression.name? rest
  let rest ← symbol? "=" rest
  let (e, rest) ← Expression.read? rest
  return (.assign name e, ← tagEnd? rest)

/-- The tag that ends what is written as it stands. -/
def endRaw? (t : Text) : Option Text := do
  let rest ← Text.dropPrefix? "\x7b%" t
  let rest ← symbol? "endraw" rest
  tagEnd? rest

/-- What stands before the tag that ends it, and what follows the tag. -/
def rawText? : Text → Option (Text × Text)
  | [] => none
  | c :: rest =>
    match endRaw? (c :: rest) with
    | some after => some ([], after)
    | none => (rawText? rest).map fun (inner, after) => (c :: inner, after)

/-- What is written as it stands. -/
def raw? (t : Text) : Option (PageSegment × Text) := do
  let rest ← symbol? "raw" t
  let rest ← tagEnd? rest
  let (inner, rest) ← rawText? rest
  return (.text inner, rest)

/-- A tag, after the mark that it begins with. -/
def tag? (t : Text) : Option (PageSegment × Text) :=
  wordWith? "if" .ifTag t <|> wordWith? "elif" .elifTag t <|> word? "else" .elseTag t <|>
    word? "endif" .endIfTag t <|> forTag? t <|> word? "endfor" .endForTag t <|> setTag? t <|> raw? t

/-- An expression whose value is written, after the mark that it begins with. -/
def output? (t : Text) : Option (PageSegment × Text) := do
  let (e, rest) ← Expression.read? t
  return (.output e, ← symbol? "\x7d\x7d" rest)

/-- What follows a remark, after the mark that it begins with. -/
def afterRemark? : Text → Option Text
  | [] => none
  | '#' :: '\x7d' :: rest => some rest
  | _ :: rest => afterRemark? rest

/-- The segments of a text, where `written` is the text since the last cut, with the last character
first.  `steps` bounds the number of steps. -/
def segmentsFrom (written : Text) : Nat → Text → Option (List PageSegment)
  | 0, _ => none
  | steps + 1, t =>
    let cut (segments : List PageSegment) : List PageSegment :=
      if written.isEmpty then segments else .text written.reverse :: segments
    match t with
    | [] => some (cut [])
    | '\x7b' :: '\x7b' :: rest => do
      let (segment, rest) ← output? rest
      return cut (segment :: (← segmentsFrom [] steps rest))
    | '\x7b' :: '%' :: rest => do
      let (segment, rest) ← tag? rest
      return cut (segment :: (← segmentsFrom [] steps rest))
    | '\x7b' :: '#' :: rest => do
      let rest ← afterRemark? rest
      return cut (← segmentsFrom [] steps rest)
    | c :: rest => segmentsFrom (c :: written) steps rest

/-- The segments of a page. -/
def ofText? (t : Text) : Option (List PageSegment) := segmentsFrom [] (t.length + 1) t

end PageSegment

/-! ## Nodes -/

namespace PageNode

/-- The further branches after one, down to the tag that ends them. -/
def moreBranches? (nodes : List PageSegment → Option (List PageNode × List PageSegment)) :
    Nat → List PageSegment →
      Option (List (Expression × List PageNode) × List PageNode × List PageSegment)
  | 0, _ => none
  | steps + 1, .elifTag e :: rest => do
    let (body, rest) ← nodes rest
    let (cases, otherwise, rest) ← moreBranches? nodes steps rest
    return ((e, body) :: cases, otherwise, rest)
  | _, .elseTag :: rest => do
    let (body, rest) ← nodes rest
    match rest with
    | .endIfTag :: rest => return ([], body, rest)
    | _ => none
  | _, .endIfTag :: rest => some ([], [], rest)
  | _, _ => none

/-- The rest of a loop after its body. -/
def loopEnd? (nodes : List PageSegment → Option (List PageNode × List PageSegment)) :
    List PageSegment → Option (List PageNode × List PageSegment)
  | .elseTag :: rest => do
    let (otherwise, rest) ← nodes rest
    match rest with
    | .endForTag :: rest => return (otherwise, rest)
    | _ => none
  | .endForTag :: rest => some ([], rest)
  | _ => none

/-- The nodes of segments, nested within `steps`. -/
def ofSegments : Nat → List PageSegment → Option (List PageNode × List PageSegment)
  | 0, _ => none
  | _, [] => some ([], [])
  | steps + 1, segment :: rest =>
    let join (node : PageNode) (rest : List PageSegment) :
        Option (List PageNode × List PageSegment) := do
      let (nodes, rest) ← ofSegments steps rest
      return (node :: nodes, rest)
    match segment with
    | .text value => join (.text value) rest
    | .output e => join (.output e) rest
    | .assign name e => join (.assign name e) rest
    | .ifTag e => do
      let (body, rest) ← ofSegments steps rest
      let (cases, otherwise, rest) ← moreBranches? (ofSegments steps) (rest.length + 1) rest
      join (.branches ((e, body) :: cases) otherwise) rest
    | .forTag name items => do
      let (body, rest) ← ofSegments steps rest
      let (otherwise, rest) ← loopEnd? (ofSegments steps) rest
      join (.loop name items body otherwise) rest
    | _ => some ([], segment :: rest)

/-- The nodes of a page, if it can be read. -/
def ofText? (t : Text) : Option (List PageNode) := do
  let segments ← PageSegment.ofText? t
  match ← ofSegments (segments.length + 1) segments with
  | (nodes, []) => return nodes
  | _ => none

end PageNode

/-! ## Rendering -/

namespace PageNode

/-- The items that a loop goes through. -/
def loopItems (value : Json) : HostCalls (List Json) :=
  match value with
  | .array items => return items
  | _ => .fail "the value is not a list"

/-- Write one text after the other, for each item. -/
def renderEach (body : Json → HostCalls Text) : List Json → HostCalls Text
  | [] => return []
  | item :: rest => do
    let here ← body item
    let after ← renderEach body rest
    return here ++ after

mutual

/-- Render a node: what is written, and the scope of the nodes after it. -/
def render (scope : HostScope) : PageNode → HostCalls (Text × HostScope)
  | text value => return (value, scope)
  | output e => do
    let value ← e.value scope
    return (value.printed, scope)
  | assign name e => do
    let value ← e.value scope
    return ([], scope.assign name value)
  | branches cases otherwise => do
    match ← renderCases scope cases with
    | some result => return result
    | none => renderAll scope otherwise
  | loop name items body otherwise => do
    let items ← loopItems (← items.value scope)
    if items.isEmpty then
      let (written, _) ← renderAll scope otherwise
      return (written, scope)
    else
      let written ← renderEach (fun item => do
        let (written, _) ← renderAll (scope.assign name item) body
        return written) items
      return (written, scope)

/-- Render nodes one after the other. -/
def renderAll (scope : HostScope) : List PageNode → HostCalls (Text × HostScope)
  | [] => return ([], scope)
  | node :: rest => do
    let (here, scope) ← render scope node
    let (after, scope) ← renderAll scope rest
    return (here ++ after, scope)

/-- Render the first case whose test holds, if there is one. -/
def renderCases (scope : HostScope) :
    List (Expression × List PageNode) → HostCalls (Option (Text × HostScope))
  | [] => return none
  | (test, body) :: rest => do
    if ← test.truth scope then return some (← renderAll scope body)
    else renderCases scope rest

end

end PageNode

/-- Render the text of a page, where functions with the given names can be called. -/
def renderPage (functions : List Text) (bindings : Fields) (code : Text) : HostCalls Text :=
  match PageNode.ofText? code with
  | none => .fail "the page cannot be read"
  | some nodes => do
    let (written, _) ← PageNode.renderAll ⟨functions, bindings⟩ nodes
    return written

end Offside
