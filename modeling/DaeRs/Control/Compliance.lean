import DaeRs.Control.Kernel
import DaeRs.Routing.Matcher
import DaeRs.Routing.Readings

/-! Whether the kernel takes the decisions that a configuration documents. -/

namespace DaeRs.Control

open Net RuleSet Bpf Routing Config

end DaeRs.Control
