import CipherVault.Error
/-!
# Templates

A template is four segments in braces: a tag, a transform name, a key alias and a payload in base64.
Segments are neither empty nor hold braces, and nothing stands before, between or behind them.
-/

namespace CipherVault

/-- What is known of an encrypted value without decrypting it. -/
structure MetaInfo where
  algorithm : String
  keyAlias : String
deriving DecidableEq, Repr

/-- The segments behind the tag. -/
structure Template where
  algorithm : String
  keyAlias : String
  payload : String
deriving DecidableEq, Repr

namespace Template

def metaInfo (template : Template) : MetaInfo :=
  ⟨template.algorithm, template.keyAlias⟩

def isBrace (c : Char) : Bool :=
  c == '\x7b' || c == '\x7d'

def isSegment (cs : List Char) : Bool :=
  !cs.isEmpty && !cs.any isBrace

/-- A segment in its braces. -/
def group (s : String) : List Char :=
  '\x7b' :: (s.toList ++ ['\x7d'])

/-- The first of the named values that is no segment. -/
def badSegment? (segments : List (TemplateSegment × String)) :
    Option (TemplateSegment × String) :=
  segments.find? fun (_, value) => !isSegment value.toList

/-- The text of a template, or the first segment that cannot stand in one. -/
def render (tag : String) (template : Template) : Except CipherError String :=
  match badSegment? [(.tag, tag), (.algorithm, template.algorithm),
      (.keyAlias, template.keyAlias), (.payload, template.payload)] with
  | some (segment, value) => .error (.illegal (.templateSegment segment value))
  | none => .ok (String.ofList (group tag ++ group template.algorithm ++
      group template.keyAlias ++ group template.payload))

/-- The contents of the brace groups that the characters consist of.  The first argument holds what
was read of an open group, in reverse; outside of a group there is none. -/
def groups? : (opened : Option (List Char)) → List Char → Option (List (List Char))
  | none, [] => some []
  | some _, [] => none
  | none, c :: rest => if c = '\x7b' then groups? (some []) rest else none
  | some content, c :: rest =>
    if c = '\x7b' then none
    else if c = '\x7d' then
      if content.isEmpty then none
      else (groups? none rest).map (content.reverse :: ·)
    else groups? (some (c :: content)) rest

/-- The template that a text with the given tag is. -/
def parse? (tag text : String) : Option Template :=
  match groups? none text.toList with
  | some [found, algorithm, keyAlias, payload] =>
    if String.ofList found = tag then
      some ⟨String.ofList algorithm, String.ofList keyAlias, String.ofList payload⟩
    else none
  | _ => none

end Template

end CipherVault
