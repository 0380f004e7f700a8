/-! The parts of the daefile configuration that routing reads. -/

namespace DaeRs.Config

structure RouteRule where
  matchExpr : String
  action : String
  deriving DecidableEq

structure RoutingConfig where
  rules : List RouteRule
  fallback : String
  deriving DecidableEq

/-- A selector of a group: names or a pattern. -/
inductive NodeSelector where
  | list (nodes : List String)
  | regex (pattern : String)
  deriving DecidableEq

structure OutboundNodeConfig where
  name : String
  protocol : String
  address : String
  deriving DecidableEq

inductive GroupType where
  | auto
  | select
  deriving DecidableEq

inductive PolicyType where
  | fixed
  | random
  | min
  | minAvg10
  | minMovingAvg
  deriving DecidableEq

structure OutboundGroupConfig where
  name : String
  groupType : GroupType
  policy : Option PolicyType
  selected : Option String
  selectors : List NodeSelector
  deriving DecidableEq

structure OutboundsConfig where
  nodes : List OutboundNodeConfig
  groups : List OutboundGroupConfig
  deriving DecidableEq

end DaeRs.Config
