import DiscussionBoard.Discussion
import DiscussionBoard.Document
import DiscussionBoard.Forum
import DiscussionBoard.Id.Text
import DiscussionBoard.Instant.Relaxed
import DiscussionBoard.Subscription.Rows

/-!
# Records

The forms in which forums, discussions and subscription rows are stored as documents. A record is a
table with a field for each part; a list of all parts in their order is read too. The parts of a
table are read in the order of their names, and only then is a missing one reported, the first in
the order of the parts.
-/

namespace DiscussionBoard

inductive DecodeError
  | missingField (name : String)
  | unknownVariant (found : String) (expected : List String)
  | malformed
deriving DecidableEq

namespace DecodeError

def quoted (name : String) : String :=
  "`" ++ name ++ "`"

def choices : List String → String
  | [a, b] => quoted a ++ " or " ++ quoted b
  | names => "one of " ++ String.intercalate ", " (names.map quoted)

/-- A malformed value is told without a text. -/
def message? : DecodeError → Option String
  | missingField name => some ("missing field " ++ quoted name)
  | unknownVariant found expected =>
    some ("unknown variant " ++ quoted found ++ ", expected " ++ choices expected)
  | malformed => none

end DecodeError

class Record (α : Type) where
  encode : α → Document
  decode : Document → Except DecodeError α

namespace Record

def member? {α : Type} [Record α] (fields : List (String × Document)) (name : String) :
    Except DecodeError (Option α) :=
  match Document.lookup name fields with
  | none => .ok none
  | some document => (decode document).map some

def require {α : Type} (name : String) : Option α → Except DecodeError α
  | some value => .ok value
  | none => .error (.missingField name)

/-- The first of the items, and the others. -/
def next {α : Type} [Record α] : List Document → Except DecodeError (α × List Document)
  | [] => .error .malformed
  | item :: rest => (decode item).map fun value => (value, rest)

/-- Refuses items that are left over. -/
def finish : List Document → Except DecodeError Unit
  | [] => .ok ()
  | _ :: _ => .error .malformed

/-- Reads one of a few named values: its name, or a table that gives the name alone. -/
def decodeNamed {α : Type} (all : List α) (name : α → String) (document : Document) :
    Except DecodeError α :=
  let find (found : String) : Except DecodeError α :=
    match all.find? fun value => name value = found with
    | some value => .ok value
    | none => .error (.unknownVariant found (all.map name))
  match document with
  | .text found => find found
  | .table [(found, content)] => do
    let value ← find found
    match content with
    | .null => .ok value
    | _ => .error .malformed
  | _ => .error .malformed

instance : Record Bool where
  encode := .bool
  decode
    | .bool value => .ok value
    | _ => .error .malformed

instance : Record Id where
  encode id := .text id.toString
  decode
    | .text value => match Id.ofString? value with
      | some id => .ok id
      | none => .error .malformed
    | _ => .error .malformed

instance : Record Instant where
  encode instant := .text instant.toString
  decode
    | .text value => match Instant.ofRelaxedString? value with
      | some instant => .ok instant
      | none => .error .malformed
    | _ => .error .malformed

instance {α : Type} [Record α] : Record (Option α) where
  encode
    | some value => encode value
    | none => .null
  decode
    | .null => .ok none
    | document => (decode document).map some

instance : Record ForumKind where
  encode kind := .text kind.name
  decode := decodeNamed ForumKind.all ForumKind.name

instance : Record SubscriptionMode where
  encode mode := .text mode.name
  decode := decodeNamed SubscriptionMode.all SubscriptionMode.name

instance : Record GroupMode where
  encode mode := .text mode.name
  decode := decodeNamed GroupMode.all GroupMode.name

instance : Record Subscription.Preference where
  encode preference := .text preference.name
  decode := decodeNamed Subscription.Preference.all Subscription.Preference.name

def decodeForumFields (fields : List (String × Document)) : Except DecodeError Forum := do
  let courseId ← member? fields "course_id"
  let groupMode ← member? fields "group_mode"
  let id ← member? fields "id"
  let kind ← member? fields "kind"
  let subscriptionMode ← member? fields "subscription_mode"
  let timedPosts ← member? fields "timed_posts"
  return {
    id := ← require "id" id
    courseId := ← require "course_id" courseId
    kind := ← require "kind" kind
    subscriptionMode := ← require "subscription_mode" subscriptionMode
    groupMode := ← require "group_mode" groupMode
    timedPosts := ← require "timed_posts" timedPosts }

def decodeForumItems (items : List Document) : Except DecodeError Forum := do
  let (id, items) ← next items
  let (courseId, items) ← next items
  let (kind, items) ← next items
  let (subscriptionMode, items) ← next items
  let (groupMode, items) ← next items
  let (timedPosts, items) ← next items
  finish items
  return { id, courseId, kind, subscriptionMode, groupMode, timedPosts }

instance : Record Forum where
  encode forum := .table [
    ("id", encode forum.id),
    ("course_id", encode forum.courseId),
    ("kind", encode forum.kind),
    ("subscription_mode", encode forum.subscriptionMode),
    ("group_mode", encode forum.groupMode),
    ("timed_posts", encode forum.timedPosts)]
  decode
    | .table fields => decodeForumFields fields
    | .list items => decodeForumItems items
    | _ => .error .malformed

/-- The group and the ends of the window may be missing. -/
def decodeDiscussionFields (fields : List (String × Document)) :
    Except DecodeError Discussion := do
  let firstPostCreated ← member? fields "first_post_created"
  let forumId ← member? fields "forum_id"
  let groupId : Option (Option Id) ← member? fields "group_id"
  let id ← member? fields "id"
  let pinned ← member? fields "pinned"
  let timeEnd : Option (Option Instant) ← member? fields "time_end"
  let timeModified ← member? fields "time_modified"
  let timeStart : Option (Option Instant) ← member? fields "time_start"
  let userId ← member? fields "user_id"
  return {
    id := ← require "id" id
    forumId := ← require "forum_id" forumId
    userId := ← require "user_id" userId
    groupId := groupId.join
    pinned := ← require "pinned" pinned
    timeModified := ← require "time_modified" timeModified
    timeStart := timeStart.join
    timeEnd := timeEnd.join
    firstPostCreated := ← require "first_post_created" firstPostCreated }

def decodeDiscussionItems (items : List Document) : Except DecodeError Discussion := do
  let (id, items) ← next items
  let (forumId, items) ← next items
  let (userId, items) ← next items
  let (groupId, items) ← next items
  let (pinned, items) ← next items
  let (timeModified, items) ← next items
  let (timeStart, items) ← next items
  let (timeEnd, items) ← next items
  let (firstPostCreated, items) ← next items
  finish items
  return { id, forumId, userId, groupId, pinned, timeModified, timeStart, timeEnd,
           firstPostCreated }

instance : Record Discussion where
  encode discussion := .table [
    ("id", encode discussion.id),
    ("forum_id", encode discussion.forumId),
    ("user_id", encode discussion.userId),
    ("group_id", encode discussion.groupId),
    ("pinned", encode discussion.pinned),
    ("time_modified", encode discussion.timeModified),
    ("time_start", encode discussion.timeStart),
    ("time_end", encode discussion.timeEnd),
    ("first_post_created", encode discussion.firstPostCreated)]
  decode
    | .table fields => decodeDiscussionFields fields
    | .list items => decodeDiscussionItems items
    | _ => .error .malformed

def decodeFollowingFields (fields : List (String × Document)) :
    Except DecodeError Subscription.Following := do
  let forumId ← member? fields "forum_id"
  let userId ← member? fields "user_id"
  return {
    userId := ← require "user_id" userId
    forumId := ← require "forum_id" forumId }

def decodeFollowingItems (items : List Document) :
    Except DecodeError Subscription.Following := do
  let (userId, items) ← next items
  let (forumId, items) ← next items
  finish items
  return { userId, forumId }

instance : Record Subscription.Following where
  encode following := .table [
    ("user_id", encode following.userId),
    ("forum_id", encode following.forumId)]
  decode
    | .table fields => decodeFollowingFields fields
    | .list items => decodeFollowingItems items
    | _ => .error .malformed

def decodeOverrideFields (fields : List (String × Document)) :
    Except DecodeError Subscription.Override := do
  let discussionId ← member? fields "discussion_id"
  let forumId ← member? fields "forum_id"
  let preference ← member? fields "preference"
  let updatedAt ← member? fields "updated_at"
  let userId ← member? fields "user_id"
  return {
    userId := ← require "user_id" userId
    forumId := ← require "forum_id" forumId
    discussionId := ← require "discussion_id" discussionId
    preference := ← require "preference" preference
    updatedAt := ← require "updated_at" updatedAt }

def decodeOverrideItems (items : List Document) : Except DecodeError Subscription.Override := do
  let (userId, items) ← next items
  let (forumId, items) ← next items
  let (discussionId, items) ← next items
  let (preference, items) ← next items
  let (updatedAt, items) ← next items
  finish items
  return { userId, forumId, discussionId, preference, updatedAt }

instance : Record Subscription.Override where
  encode override := .table [
    ("user_id", encode override.userId),
    ("forum_id", encode override.forumId),
    ("discussion_id", encode override.discussionId),
    ("preference", encode override.preference),
    ("updated_at", encode override.updatedAt)]
  decode
    | .table fields => decodeOverrideFields fields
    | .list items => decodeOverrideItems items
    | _ => .error .malformed

end Record

end DiscussionBoard
