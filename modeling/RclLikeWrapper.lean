import RclLikeWrapper.Handle
import RclLikeWrapper.Signal
import RclLikeWrapper.Executor.Basic
import RclLikeWrapper.Executor.Spin
import RclLikeWrapper.Executor.Lock
import RclLikeWrapper.Executor.Atomicity
import RclLikeWrapper.RclwNode
import RclLikeWrapper.Subscription.Callback
import RclLikeWrapper.Subscription.Interleaving
import RclLikeWrapper.Subscription.Linearization
import RclLikeWrapper.Subscription.Endpoint
import RclLikeWrapper.Registry
import RclLikeWrapper.Rate
import RclLikeWrapper.Process
