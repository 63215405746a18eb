/-!
# Capabilities of a query builder

A query builder lets clients include relations, filter, sort and choose fields. Each capability is
switched on by one method of the builder and is reached through one query parameter.
-/

set_option autoImplicit false

namespace RouteDoc

/-- The four ways in which clients shape a query. -/
inductive Capability where
  /-- Relations to include. -/
  | relation
  /-- Filters, one parameter for each. -/
  | filter
  /-- Orders of the result. -/
  | sort
  /-- Fields to return, one parameter for each. -/
  | field
deriving DecidableEq, Repr

namespace Capability

/-- All capabilities, in the order of documentation. -/
def all : List Capability :=
  [relation, filter, sort, field]

/-- The name of a capability. -/
def name : Capability → String
  | relation => "include"
  | filter => "filter"
  | sort => "sort"
  | field => "field"

/-- The capability of that name. -/
def ofName? (s : String) : Option Capability :=
  all.find? (·.name == s)

/-- The builder's method that switches the capability on. -/
def builderMethod : Capability → String
  | relation => "allowedIncludes"
  | filter => "allowedFilters"
  | sort => "allowedSorts"
  | field => "allowedFields"

/-- Whether every value has a parameter `key[value]` of its own. -/
def isPerValue : Capability → Bool
  | filter | field => true
  | relation | sort => false

/-- Values that illustrate the capability. -/
def samples : Capability → List String
  | relation => ["posts", "posts.comments", "books"]
  | filter => ["[name]=john", "[email]=gmail"]
  | sort => ["title", "-title", "title,-id"]
  | field => ["id", "title", "posts.id"]

/-- Every capability is read back from its name. -/
theorem ofName?_name (c : Capability) : ofName? c.name = some c := by
  cases c <;> decide

end Capability

/-- A capability under its query key. -/
structure Feature where
  /-- The capability. -/
  capability : Capability
  /-- The query parameter through which clients reach it. -/
  key : String
  /-- Example values worked out for the handler at hand. -/
  values : List String := []
deriving DecidableEq, Repr

end RouteDoc
