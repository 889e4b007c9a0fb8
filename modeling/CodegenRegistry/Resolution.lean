import CodegenRegistry.Diagnostic
import CodegenRegistry.Expansion
import CodegenRegistry.Registry
/-!
# Resolution

Resolving a written name gives its generators at a site, or a diagnostic at the place of the name.
The hint for an unknown name is taken from the names that can be used at the site.
-/

namespace CodegenRegistry

namespace Registry

variable {H : Host}

def supported (r : Registry H) (site : Site) : List String :=
  Expansion.supported r.catalog site

/-- The diagnostic for an expansion that failed. The name is the one at fault, which an alias may
have brought in; the place is that of the name as written. -/
def diagnose (r : Registry H) (site : Site) (loc : Position) : Expansion.Failure → Diagnostic
  | .unknown name =>
    .unknownGenerator name site loc
      (Spelling.suggest r.settings.cutoff name (r.supported site))
  | .unsupported name => .unsupportedSite name site loc

def resolve (r : Registry H) (site : Site) (name : Positioned String) :
    Logged Diagnostic (List (Resolved H)) :=
  match Expansion.expand r.catalog site name.value with
  | .ok found => ⟨[.nameResolved name.value site (found.map Resolved.name)], .ok found⟩
  | .error failure => .fail (r.diagnose site name.loc failure)

theorem pairwise_supported (r : Registry H) (site : Site) :
    (r.supported site).Pairwise (· < ·) :=
  List.Pairwise.sublist List.filter_sublist r.catalog.pairwise_names

theorem result_resolve (r : Registry H) (site : Site) (name : Positioned String) :
    (r.resolve site name).result =
      (Expansion.expand r.catalog site name.value).mapError (r.diagnose site name.loc) := by
  rw [resolve]
  cases Expansion.expand r.catalog site name.value <;> rfl

theorem result_resolve_eq_ok_iff {r : Registry H} {site : Site} {name : Positioned String}
    {found : List (Resolved H)} :
    (r.resolve site name).result = .ok found ↔
      Expansion.expand r.catalog site name.value = .ok found := by
  rw [result_resolve, mapError_eq_ok_iff]

theorem result_resolve_eq_error_iff {r : Registry H} {site : Site} {name : Positioned String}
    {e : Diagnostic} :
    (r.resolve site name).result = .error e ↔
      ∃ failure, Expansion.expand r.catalog site name.value = .error failure ∧
        r.diagnose site name.loc failure = e := by
  rw [result_resolve, mapError_eq_error_iff]

end Registry

end CodegenRegistry
