import ComponentDocs.Dict
import ComponentDocs.Tag.Comment

/-!
# Tags by title

Tags grouped by their titles, the groups in the order of first occurrence and each group in the
order of the comment.
-/

namespace ComponentDocs

abbrev TagGroups : Type := Dict (List Tag)

namespace TagGroups

def tagged (groups : TagGroups) (title : String) : List Tag :=
  (groups.get? title).getD []

/-- Add a tag to the end of its group. -/
def add (groups : TagGroups) (tag : Tag) : TagGroups :=
  groups.insert tag.title (groups.tagged tag.title ++ [tag])

def ofTags (tags : List Tag) : TagGroups :=
  tags.foldl add Dict.empty

/-- The tags of every given title, title after title. -/
def select (groups : TagGroups) (titles : List String) : List Tag :=
  titles.flatMap groups.tagged

end TagGroups

def readTags (sloppy : Bool) (text : String) : Except TagError TagGroups := do
  let comment ← Comment.read sloppy text
  return TagGroups.ofTags comment.tags

end ComponentDocs
