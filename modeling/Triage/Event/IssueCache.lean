/-!
# Issue caches

A service remembers for a while which issue a key stands for.  Entries are in the order in which
they were added, the oldest first.  Adding one drops expired entries from the old end, and as many
more as the cache has too many.
-/

namespace Triage

/-- How long entries last, in microseconds, and how many there can be. -/
structure CachePolicy where
  lifetime : Int
  maxEntries : Int
deriving DecidableEq, Repr

/-- Five minutes, and ten thousand entries. -/
def CachePolicy.usual : CachePolicy := ⟨300000000, 10000⟩

/-- A remembered issue. -/
structure CachedIssue where
  key : String
  issueId : Int
  issueUuid : String
  since : Int
deriving DecidableEq, Repr

/-- The remembered issues, and the keys that are being looked up. -/
structure IssueCache where
  entries : List CachedIssue
  guarded : List String
deriving DecidableEq, Repr

namespace IssueCache

/-- Nothing remembered. -/
def empty : IssueCache := ⟨[], []⟩

/-- Whether an entry has outlived its time. -/
def isExpired (policy : CachePolicy) (now : Int) (e : CachedIssue) : Bool :=
  decide (policy.lifetime < now - e.since)

/-- The cache without a key. -/
def forget (c : IssueCache) (key : String) : IssueCache :=
  { c with entries := c.entries.filter fun e => e.key != key }

/-- The issue of a key, unless it has expired; an expired entry is dropped. -/
def find (c : IssueCache) (policy : CachePolicy) (now : Int) (key : String) :
    Option CachedIssue × IssueCache :=
  match c.entries.find? fun e => e.key = key with
  | none => (none, c)
  | some e => if isExpired policy now e then (none, c.forget key) else (some e, c)

/-- Drops entries from the old end while the oldest has expired or there is no room for one more. -/
def makeRoom (policy : CachePolicy) (now : Int) : List CachedIssue → List CachedIssue
  | [] => []
  | oldest :: rest =>
    if isExpired policy now oldest || decide (policy.maxEntries ≤ (rest.length : Int) + 1) then
      makeRoom policy now rest
    else oldest :: rest

/-- Remembers an issue at the young end. -/
def add (c : IssueCache) (policy : CachePolicy) (now : Int) (key : String) (issueId : Int)
    (issueUuid : String) : IssueCache :=
  { c with entries :=
      makeRoom policy now (c.forget key).entries ++ [⟨key, issueId, issueUuid, now⟩] }

/-- Notes that a key is being looked up. -/
def guard (c : IssueCache) (key : String) : IssueCache :=
  { c with guarded := key :: c.guarded.filter fun k => k != key }

/-- Notes that a key is no longer being looked up. -/
def release (c : IssueCache) (key : String) : IssueCache :=
  { c with guarded := c.guarded.filter fun k => k != key }

end IssueCache
end Triage
