import DaeRs.Routing.Documented

/-! The rules of a configuration, one by one, as the kernel takes the conditions laid out for them
and as they are documented. -/

namespace DaeRs.Routing

open Chain FirstMatch Net RuleSet Bpf Config List

section Laid

variable (env : Env) (cache : Option RuleSetCache) (idMap : OutboundIdMap) (args : RouteArgs)
  (q : Option String)

end Laid

section Readings

variable {env : Env} {cache : Option RuleSetCache} {idMap : OutboundIdMap} {args : RouteArgs}
  {q : Option String}

end Readings

end DaeRs.Routing
