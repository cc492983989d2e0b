import Branchscore.Foundation.Search
import Branchscore.Foundation.Scan
import Branchscore.Foundation.Parsing
import Branchscore.Tokenizer.AnswerLabel
import Branchscore.SystemoneAdapter.Accepted
import Branchscore.SystemoneAdapter.Base64
import Branchscore.SystemoneAdapter.MemberOrder
import Branchscore.ModelLoader.Clamps
import Branchscore.ModelLoader.PixelLimits
import Branchscore.Tokenizer.Progress
import Branchscore.PrefillEngine.Splicing
import Branchscore.CategoricalReadout.Summary
import Branchscore.ImagePreprocessor.Bounds
import Branchscore.ImagePreprocessor.TargetSize
import Branchscore.Server.Fragmentation
import Branchscore.Server.Trailers
import Branchscore.Server.Accounting
import Branchscore.Sha256.Digest
import Branchscore.PromptRenderer.OptionList
import Branchscore.Server.UiException
import Branchscore.DecisionEngine
import Branchscore.DecisionEngine.Placeholder
import Branchscore.DecisionEngine.Preflight
import Branchscore.DecisionEngine.Positions
import Branchscore.Server.Decisions
import Branchscore.Server.PositionBudget
import Branchscore.DecisionEngine.Scores
import Branchscore.SystemoneAdapter.ResponseParts
import Branchscore.DecisionEngine.Progress
import Branchscore.SystemoneAdapter.Alignment
import Branchscore.Server.Transport
import Branchscore.Server.Startup
import Branchscore.DecisionEngine.Renaming
import Branchscore.PrefillEngine.Beginning
import Branchscore.Server.Served
import Branchscore.SystemoneAdapter.Form
import Branchscore.ModelLoader.Copy
import Branchscore.ImagePreprocessor.Convolution
