namespace SqlSelect

inductive Operator where
  | eq
  | gt
  | lt
  | ge
  | le
  | ne
deriving DecidableEq, Repr

namespace Operator

def all : List Operator := [eq, gt, lt, ge, le, ne]

def spelling : Operator → String
  | eq => "="
  | gt => ">"
  | lt => "<"
  | ge => ">="
  | le => "<="
  | ne => "<>"

instance : ToString Operator := ⟨spelling⟩
instance : Inhabited Operator := ⟨eq⟩

end Operator

inductive Conjunction where
  | and
  | or
deriving DecidableEq, Repr

namespace Conjunction

def all : List Conjunction := [and, or]

def spelling : Conjunction → String
  | and => "AND"
  | or => "OR"

instance : ToString Conjunction := ⟨spelling⟩
instance : Inhabited Conjunction := ⟨and⟩

end Conjunction

inductive JoinKind where
  | inner
  | outer
deriving DecidableEq, Repr

namespace JoinKind

def all : List JoinKind := [inner, outer]

def spelling : JoinKind → String
  | inner => "INNER"
  | outer => "OUTER"

instance : ToString JoinKind := ⟨spelling⟩

end JoinKind

inductive Direction where
  | asc
  | desc
deriving DecidableEq, Repr

namespace Direction

def all : List Direction := [asc, desc]

def spelling : Direction → String
  | asc => "ASC"
  | desc => "DESC"

instance : ToString Direction := ⟨spelling⟩
instance : Inhabited Direction := ⟨asc⟩

end Direction

end SqlSelect
