import TruthBounty.JsBuiltins
import TruthBounty.Binary64
import TruthBounty.ReputationDelta
import TruthBounty.ReputationLedger
import TruthBounty.ReadCommitted
import TruthBounty.Aggregation
import TruthBounty.SybilScore
import TruthBounty.SybilVoting
import TruthBounty.Interleaving
import TruthBounty.WalletLinking
import TruthBounty.WorldId
import TruthBounty.RewardSync
import TruthBounty.RewardListener
import TruthBounty.ClaimResolution
import TruthBounty.WalletThrottler
import TruthBounty.Redis
import TruthBounty.RedisThrottler
import TruthBounty.RedisCache
