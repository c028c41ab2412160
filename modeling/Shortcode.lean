import Shortcode.Main
import Shortcode.Proofs.AliasDefaults
import Shortcode.Proofs.AttributeValues
import Shortcode.Proofs.BalancedContent
import Shortcode.Proofs.BracedReferences
import Shortcode.Proofs.DeclaredTags
import Shortcode.Proofs.DepthLimit
import Shortcode.Proofs.DispatchPlan
import Shortcode.Proofs.EscapedContent
import Shortcode.Proofs.Evaluation
import Shortcode.Proofs.Fences
import Shortcode.Proofs.HtmlReading
import Shortcode.Proofs.IncludedParameters
import Shortcode.Proofs.NestedPairs
import Shortcode.Proofs.Overlay
import Shortcode.Proofs.PageRoutes
import Shortcode.Proofs.Paging
import Shortcode.Proofs.Policies
import Shortcode.Proofs.Protecting
import Shortcode.Proofs.QuotedTags
import Shortcode.Proofs.QuotedValues
import Shortcode.Proofs.Registration
import Shortcode.Proofs.Resuming
import Shortcode.Proofs.ShownSizes
import Shortcode.Proofs.Spelling
import Shortcode.Proofs.StableSorting
import Shortcode.Proofs.TagLines
import Shortcode.Proofs.TagPositions
import Shortcode.Proofs.TemplatePrinting
import Shortcode.Proofs.UnusedNames
