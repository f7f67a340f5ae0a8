import Gateway.Model.World

/-!
# Hostnames of agents (`agent_service._new_slug`, `_public_url`, `ingress.slug_from_host`)

Strings are worked on as lists of characters, the way the source slices them. `str.lower` is
`Deps.lower`; the random suffix of a slug is an argument.
-/

namespace Gateway

/-- The characters `[a-z0-9]`. -/
def isSlugChar (c : Char) : Bool := ('a' ≤ c && c ≤ 'z') || ('0' ≤ c && c ≤ '9')

/-- `re.sub(r"[^a-z0-9]+", "-", s)`; `inRun` says that the current run has its dash already. -/
def collapse : Bool → List Char → List Char
  | _, [] => []
  | inRun, c :: cs =>
    if isSlugChar c then c :: collapse false cs
    else if inRun then collapse true cs
    else '-' :: collapse true cs

/-- `s.rstrip(c)`. -/
def rstrip (c : Char) (s : List Char) : List Char := (s.reverse.dropWhile (· == c)).reverse

/-- `s.strip(c)`. -/
def strip (c : Char) (s : List Char) : List Char := rstrip c (s.dropWhile (· == c))

/-- The part of a slug that comes from the name. -/
def slugBase (d : Deps) (name : String) : List Char :=
  let base := strip '-' ((strip '-' (collapse false (d.lower name.toList))).take 40)
  if base = [] then "agent".toList else base

/-- `_new_slug`. -/
def newSlug (d : Deps) (name : String) (suffix : List Char) : String :=
  String.ofList (slugBase d name ++ '-' :: suffix)

/-- `settings.agent_base_domain`, when set and not empty. -/
def Settings.baseDomain? (s : Settings) : Option String := s.agentBaseDomain.filter (· ≠ "")

/-- `_public_url`. -/
def publicUrl (s : Settings) (a : Agent) : Option String :=
  s.baseDomain?.map fun base => "https://" ++ a.slug ++ "." ++ base

/-- `slug_from_host`. -/
def slugFromHost (d : Deps) (s : Settings) (host : String) : Option String :=
  s.baseDomain?.bind fun base =>
    let h := d.lower (rstrip '.' (host.toList.takeWhile (· ≠ ':')))
    let suffix := '.' :: rstrip '.' (d.lower base.toList)
    if suffix.isSuffixOf h then
      let slug := h.take (h.length - suffix.length)
      if slug = [] ∨ '.' ∈ slug then none else some (String.ofList slug)
    else none

end Gateway
