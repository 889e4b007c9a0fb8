import CodegenRegistry.Generator
import CodegenRegistry.NameTable
import CodegenRegistry.Site
/-!
# Catalogs

A catalog holds entries under names: bundles, which have at most one generator for each site, and
aliases for lists of other names. A description of an entry shows all of it but the functions.
-/

namespace CodegenRegistry

/-- The generators of one name by site, and perhaps a way to make an expression. -/
structure Bundle (H : Host) where
  generators : Site → Option (Generator H) := fun _ => none
  expression : Option (H.Context → H.Declaration → H.Item) := none

namespace Bundle

variable {H : Host}

def on (site : Site) (g : Generator H) (b : Bundle H) : Bundle H :=
  { b with generators := site.assign (some g) b.generators }

def sites (b : Bundle H) : List Site :=
  Site.all.filter fun site => (b.generators site).isSome

end Bundle

/-- A name that stands for other names, the same ones at each site unless overridden. -/
structure Alias where
  fallback : List String
  overrides : Site → Option (List String) := fun _ => none

namespace Alias

def on (site : Site) (targets : List String) (a : Alias) : Alias :=
  { a with overrides := site.assign (some targets) a.overrides }

def targets (a : Alias) (site : Site) : List String :=
  (a.overrides site).getD a.fallback

end Alias

inductive Entry (H : Host)
  | ofBundle (b : Bundle H)
  | ofAlias (a : Alias)

namespace Entry

inductive Kind
  | generator
  | aliased
deriving DecidableEq, Repr

def Kind.text : Kind → String
  | generator => "generator"
  | aliased => "alias"

/-- An entry without its functions; sites are listed in the order of `Site.all`. -/
inductive Description
  | generator (sites : List Site) (hasExpression : Bool)
  | aliased (fallback : List String) (overrides : List (Site × List String))
deriving DecidableEq, Repr

def Description.kind : Description → Kind
  | generator .. => .generator
  | aliased .. => .aliased

variable {H : Host}

def kind : Entry H → Kind
  | ofBundle _ => .generator
  | ofAlias _ => .aliased

def describe : Entry H → Description
  | ofBundle b => .generator b.sites b.expression.isSome
  | ofAlias a =>
    .aliased a.fallback
      (Site.all.filterMap fun site => (a.overrides site).map fun names => (site, names))

def expression? : Entry H → Option (H.Context → H.Declaration → H.Item)
  | ofBundle b => b.expression
  | ofAlias _ => none

@[simp] theorem kind_describe (e : Entry H) : e.describe.kind = e.kind := by
  cases e <;> rfl

end Entry

abbrev Catalog (H : Host) := NameTable (Entry H)

end CodegenRegistry
