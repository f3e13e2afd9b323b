import TemplateTypes.Text.Letter

namespace TemplateTypes.Markdown

open Text

def fence : Text := [backtick, backtick, backtick]

/-- What follows the first line of a block that opens here: the fence, a tag without backticks
    and a line end. -/
def afterOpening? (t : Text) : Option Text :=
  match after? fence t with
  | none => none
  | some rest =>
    match rest.dropWhile fun c => c != '\n' && c != backtick with
    | '\n' :: body => some body
    | _ => none

/-- The text before the next fence; a line end in front of the fence belongs to the fence. -/
def untilFence? (body : Text) : Option Text :=
  (find? fence body).map fun i =>
    let content := body.take i
    if endsWith content ['\n'] then content.dropLast else content

def firstBlock? : Text → Option Text
  | [] => none
  | c :: rest =>
    match (afterOpening? (c :: rest)).bind untilFence? with
    | some content => some content
    | none => firstBlock? rest

/-- The first block's content without surrounding blanks, when it holds anything. -/
def codeBlock? (markdown : Text) : Option Text :=
  match firstBlock? markdown with
  | none => none
  | some content => if allBlank content then none else some (trim content)

def wordEnds (before : Option Char) (rest : Text) : Bool :=
  before.any isWord != rest.head?.any isWord

/-- A fence directly followed by one of the tags as a whole word, or by any word when there are no
    tags. -/
def opensTagged (tags : List Text) (t : Text) : Bool :=
  match after? fence t with
  | none => false
  | some rest =>
    (if tags.isEmpty then [[]] else tags).any fun tag =>
      match after? tag rest with
      | none => false
      | some more => wordEnds (some (tag.getLast?.getD backtick)) more

def hasTaggedFence (tags : List Text) : Text → Bool
  | [] => false
  | c :: rest => opensTagged tags (c :: rest) || hasTaggedFence tags rest

end TemplateTypes.Markdown
