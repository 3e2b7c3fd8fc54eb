import SingBoxAuth.QuotaServiceOps

/-! When mustPeriodKey panics. -/
namespace SingBoxAuth.TrafficQuota
open Interleaving

/-- The reset loop has found alice's state when alice is removed. -/
def vanishMoves : List (Move Act Act.Res) :=
  launch 1 periodResetRound 3 ++ launch 2 (void (serviceRemoveConfig "alice")) 14 ++ proceed 1 1

lemma vanishMoves_startable : Startable serviceOps vanishMoves :=
  ((startable_launch (fun _ => .periodResetRound) 3).append
    (startable_launch (fun _ => .removeConfig _) 14)).append (startable_proceed _ 1 1)

def orderlyMoves : List (Move Act Act.Res) :=
  launch 1 periodResetRound 5 ++ launch 2 (void (serviceRemoveConfig "alice")) 14

lemma orderlyMoves_startable : Startable serviceOps orderlyMoves :=
  (startable_launch (fun _ => .periodResetRound) 5).append
    (startable_launch (fun _ => .removeConfig _) 14)

end SingBoxAuth.TrafficQuota
